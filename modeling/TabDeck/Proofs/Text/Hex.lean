import Mathlib.Algebra.Group.Nat.Defs
import Mathlib.Data.Nat.Digits.Lemmas
import TabDeck.Text.Basic

namespace TabDeck.Text.Hex

theorem value?_digitChar : ∀ d < 16, value? (Nat.digitChar d) = some d := by decide

theorem number?_append (l r : List Char) :
    number? (l ++ r) = (number? l).bind fun m => r.foldlM (fun n c => (value? c).map (n * 16 + ·)) m :=
  List.foldlM_append

theorem number?_replicate_zero (k : Nat) : number? (List.replicate k '0') = some 0 := by
  induction k with
  | zero => rfl
  | succ k ih => exact ih

theorem number?_toDigits (n : Nat) : number? (Nat.toDigits 16 n) = some n := by
  induction n using Nat.strongRecOn with
  | ind n ih =>
    rw [Nat.toDigits_eq_if (by omega)]
    by_cases hn : n < 16
    · rw [if_pos hn, number?, List.foldlM_cons, value?_digitChar n hn]
      simp
    · rw [if_neg hn, number?_append, ih (n / 16) (by omega), Option.bind_some, List.foldlM_cons,
        value?_digitChar _ (Nat.mod_lt n (by omega))]
      simp only [Option.map_some, Option.bind_eq_bind, Option.bind_some, List.foldlM_nil]
      exact congrArg some (Nat.div_add_mod' n 16)

theorem number?_digits (width n : Nat) : number? (digits width n) = some n := by
  rw [digits, number?_append, number?_replicate_zero]
  exact number?_toDigits n

theorem length_digits {width n : Nat} (hw : 0 < width) (hn : n < 16 ^ width) : (digits width n).length = width := by
  have hlen := (Nat.length_toDigits_le_iff (by omega) hw).mpr hn
  rw [digits, List.length_append, List.length_replicate]
  omega

section Digits

def IsDigit (c : Char) (d : Nat) : Prop := d < 16 ∧ (c = Nat.digitChar d ∨ c = (Nat.digitChar d).toUpper)

instance (c : Char) (d : Nat) : Decidable (IsDigit c d) := inferInstanceAs (Decidable (_ ∧ _))

def Denotes (text : List Char) (n : Nat) : Prop := ∃ ds, List.Forall₂ IsDigit text.reverse ds ∧ n = Nat.ofDigits 16 ds

variable {c : Char} {d n : Nat} {text : List Char}

theorem toNat_lt_of_value? (h : value? c = some d) : c.toNat < 103 := by
  have hle {b : Char} (hb : c ≤ b) : c.toNat ≤ b.toNat := hb
  rw [value?] at h
  split at h
  · next hdigit =>
    have h9 : c.toNat ≤ '9'.toNat := of_decide_eq_true (Bool.and_eq_true_iff.mp hdigit).2
    exact h9.trans_lt (by decide)
  · split at h
    · next hlower => exact (hle (of_decide_eq_true (Bool.and_eq_true_iff.mp hlower).2)).trans_lt (by decide)
    · split at h
      · next hupper => exact (hle (of_decide_eq_true (Bool.and_eq_true_iff.mp hupper).2)).trans_lt (by decide)
      · cases h

theorem forall_char {P : Char → Prop} (bound : Nat) (htable : ∀ n < bound, P (Char.ofNat n))
    (hbeyond : ∀ c, bound ≤ c.toNat → P c) : ∀ c, P c := by
  intro c
  by_cases hc : c.toNat < bound
  · exact Char.ofNat_toNat c ▸ htable c.toNat hc
  · exact hbeyond c (Nat.le_of_not_lt hc)

theorem isDigit_of_value? : ∀ c, ∀ d ∈ value? c, IsDigit c d := by
  refine forall_char 103 (by decide) fun c hc d hd => ?_
  exact absurd (toNat_lt_of_value? hd) (Nat.not_lt_of_le hc)

theorem value?_eq_some_iff : value? c = some d ↔ IsDigit c d := by
  constructor
  · exact isDigit_of_value? c d
  · rintro ⟨hd, rfl | rfl⟩
    · exact value?_digitChar d hd
    · have hupper : ∀ d < 16, value? (Nat.digitChar d).toUpper = some d := by decide
      exact hupper d hd

theorem denotes_nil : Denotes [] n ↔ n = 0 := by
  constructor
  · rintro ⟨ds, hds, rfl⟩
    rw [List.forall₂_nil_left_iff.mp hds, Nat.ofDigits_nil]
  · rintro rfl
    exact ⟨[], .nil, rfl⟩

theorem denotes_concat : Denotes (text ++ [c]) n ↔ ∃ m d, Denotes text m ∧ IsDigit c d ∧ n = m * 16 + d := by
  simp only [Denotes, List.reverse_concat]
  constructor
  · rintro ⟨ds, hds, rfl⟩
    obtain ⟨d, rest, hd, hrest, rfl⟩ := List.forall₂_cons_left_iff.mp hds
    refine ⟨Nat.ofDigits 16 rest, d, ⟨rest, hrest, rfl⟩, hd, ?_⟩
    rw [Nat.ofDigits_cons]
    omega
  · rintro ⟨m, d, ⟨ds, hds, rfl⟩, hd, rfl⟩
    refine ⟨d :: ds, .cons hd hds, ?_⟩
    rw [Nat.ofDigits_cons]
    omega

theorem number?_eq_some_iff : number? text = some n ↔ Denotes text n := by
  induction text using List.reverseRecOn generalizing n with
  | nil => exact Option.some_inj.trans (eq_comm.trans denotes_nil.symm)
  | append_singleton text c ih =>
    have hlast (m : Nat) : [c].foldlM (fun n c => (value? c).map (n * 16 + ·)) m = (value? c).map (m * 16 + ·) := by
      rw [List.foldlM_cons]
      cases value? c <;> rfl
    simp only [number?_append, hlast, Option.bind_eq_some_iff, Option.map_eq_some_iff, ih, value?_eq_some_iff,
      denotes_concat]
    constructor
    · rintro ⟨m, hm, d, hd, rfl⟩
      exact ⟨m, d, hm, hd, rfl⟩
    · rintro ⟨m, d, hm, hd, rfl⟩
      exact ⟨m, hm, d, hd, rfl⟩

theorem lt_of_denotes (h : Denotes text n) : n < 16 ^ text.length := by
  induction text using List.reverseRecOn generalizing n with
  | nil =>
    rw [denotes_nil.mp h]
    exact Nat.one_pos
  | append_singleton text c ih =>
    obtain ⟨m, d, hm, hd, rfl⟩ := denotes_concat.mp h
    have hlt := ih hm
    have hdigit := hd.1
    rw [List.length_append, List.length_singleton, pow_succ]
    omega

theorem denotes_append {l r : List Char} {m : Nat} (hl : Denotes l m) (hr : Denotes r n) :
    Denotes (l ++ r) (m * 16 ^ r.length + n) := by
  induction r using List.reverseRecOn generalizing n with
  | nil =>
    rw [denotes_nil.mp hr, List.append_nil, List.length_nil, pow_zero, Nat.mul_one, Nat.add_zero]
    exact hl
  | append_singleton r c ih =>
    obtain ⟨k, d, hk, hd, rfl⟩ := denotes_concat.mp hr
    rw [← List.append_assoc, denotes_concat]
    refine ⟨_, d, ih hk, hd, ?_⟩
    rw [List.length_append, List.length_singleton, pow_succ]
    ring

end Digits

section Case

theorem toLower_of_le {c : Char} (h : 91 ≤ c.toNat) : c.toLower = c :=
  dif_neg fun hupper => Nat.not_le_of_lt h hupper.2

theorem toUpper_of_le {c : Char} (h : 123 ≤ c.toNat) : c.toUpper = c :=
  dif_neg fun hlower => Nat.not_le_of_lt h hlower.2

theorem value?_toLower : ∀ c : Char, value? c.toLower = value? c :=
  forall_char 91 (by decide) fun _ h => congrArg value? (toLower_of_le h)

theorem value?_toUpper : ∀ c : Char, value? c.toUpper = value? c :=
  forall_char 123 (by decide) fun _ h => congrArg value? (toUpper_of_le h)

theorem number?_map {f : Char → Char} (hf : ∀ c, value? (f c) = value? c) (text : List Char) :
    number? (text.map f) = number? text := by
  rw [number?, number?, List.foldlM_map]
  simp only [hf]

theorem Denotes.recased {text text' : List Char} {n : Nat} (h : text'.map Char.toLower = text.map Char.toLower)
    (hn : Denotes text n) : Denotes text' n := by
  rw [← number?_eq_some_iff] at hn ⊢
  rw [← number?_map value?_toLower, h, number?_map value?_toLower, hn]

theorem toLower_eq_or_le : ∀ c : Char, c.toLower = c ∨ 97 ≤ c.toLower.toNat :=
  forall_char 91 (by decide) fun _ h => .inl (toLower_of_le h)

theorem eq_of_toLower_eq {c d : Char} (hd : d.toNat < 97) (h : c.toLower = d) : c = d := by
  rcases toLower_eq_or_le c with hc | hc
  · exact hc.symm.trans h
  · exact absurd (h ▸ hc) (Nat.not_le_of_lt hd)

theorem denotes_upperDigits (width n : Nat) : Denotes (upperDigits width n) n := by
  rw [← number?_eq_some_iff, upperDigits, number?_map value?_toUpper, number?_digits]

theorem length_upperDigits {width n : Nat} (hw : 0 < width) (hn : n < 16 ^ width) :
    (upperDigits width n).length = width := by
  rw [upperDigits, List.length_map, length_digits hw hn]

end Case

end TabDeck.Text.Hex
