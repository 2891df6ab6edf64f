import Mathlib.Data.String.Basic
import Mathlib.Order.Basic

namespace TabDeck.Text

open String (utf8EncodeChar)

def bytes (s : String) : List UInt8 := s.toUTF8.data.toList

def followers (v : Nat) : Nat := if v ≤ 127 then 0 else if v ≤ 2047 then 1 else if v ≤ 65535 then 2 else 3

def leader (v : Nat) : Nat :=
  if v ≤ 127 then v else if v ≤ 2047 then v / 64 + 192 else if v ≤ 65535 then v / 4096 + 224 else v / 262144 + 240

def trailers : Nat → Nat → List UInt8
  | 0, _ => []
  | k + 1, v => UInt8.ofNat (v / 64 ^ k % 64 + 128) :: trailers k v

section Characters

variable {m n : Nat} {before after : List UInt8}

theorem toNat_val_lt (c : Char) : c.val.toNat < 1114112 := by
  rcases c.valid with h | h
  · exact Nat.lt_trans h (by decide)
  · exact h.2

theorem cons_ofNat_lt (hn : n < 256) (h : m < n) : UInt8.ofNat m :: before < UInt8.ofNat n :: after := by
  rw [List.cons_lt_cons_iff, UInt8.lt_iff_toNat_lt, UInt8.toNat_ofNat_of_lt' (h.trans hn), UInt8.toNat_ofNat_of_lt' hn]
  exact .inl h

theorem trailers_lt {k : Nat} (h : m < n) (hk : m / 64 ^ k = n / 64 ^ k) :
    trailers k m ++ before < trailers k n ++ after := by
  induction k with
  | zero =>
    rw [Nat.pow_zero, Nat.div_one, Nat.div_one] at hk
    exact absurd hk h.ne
  | succ k ih =>
    rw [Nat.pow_succ, ← Nat.div_div_eq_div_mul, ← Nat.div_div_eq_div_mul] at hk
    rw [trailers, trailers, List.cons_append, List.cons_append]
    by_cases hbits : m / 64 ^ k = n / 64 ^ k
    · rw [hbits]
      exact List.cons_lt_cons_iff.mpr (.inr ⟨rfl, ih hbits⟩)
    · have hle : m / 64 ^ k ≤ n / 64 ^ k := Nat.div_le_div_right h.le
      exact cons_ofNat_lt (by omega) (by omega)

theorem leader_lt (h : m < n) (hn : n < 1114112) : leader m < leader n ∧ leader n < 256 ∨
    leader m = leader n ∧ followers m = followers n ∧ m / 64 ^ followers n = n / 64 ^ followers n := by
  unfold leader followers
  split_ifs <;> omega

theorem utf8EncodeChar_eq (c : Char) :
    utf8EncodeChar c = UInt8.ofNat (leader c.val.toNat) :: trailers (followers c.val.toNat) c.val.toNat := by
  have hbound := toNat_val_lt c
  simp only [utf8EncodeChar, leader, followers]
  generalize c.val.toNat = v at hbound
  split_ifs
  · rfl
  · have hhigh : v / 64 % 32 = v / 64 := Nat.mod_eq_of_lt (by omega)
    simp [trailers, hhigh]
  · have hhigh : v / 4096 % 16 = v / 4096 := Nat.mod_eq_of_lt (by omega)
    simp [trailers, hhigh]
  · have hhigh : v / 262144 % 8 = v / 262144 := Nat.mod_eq_of_lt (by omega)
    simp [trailers, hhigh]

theorem utf8EncodeChar_lt {c d : Char} (h : c < d) : utf8EncodeChar c ++ before < utf8EncodeChar d ++ after := by
  have hval : c.val.toNat < d.val.toNat := UInt32.lt_iff_toNat_lt.mp h
  rw [utf8EncodeChar_eq, utf8EncodeChar_eq, List.cons_append, List.cons_append]
  rcases leader_lt hval (toNat_val_lt d) with ⟨hlt, hbyte⟩ | ⟨heq, hcount, hhigh⟩
  · exact cons_ofNat_lt hbyte hlt
  · rw [heq, hcount]
    exact List.cons_lt_cons_iff.mpr (.inr ⟨rfl, trailers_lt hval hhigh⟩)

end Characters

theorem bytes_eq (s : String) : bytes s = s.toList.flatMap utf8EncodeChar := by
  rw [bytes, String.toUTF8_eq_toByteArray, ← String.utf8Encode_toList, List.utf8Encode, List.data_toByteArray]

theorem flatMap_utf8EncodeChar_lt {cs ds : List Char} (h : cs < ds) :
    cs.flatMap utf8EncodeChar < ds.flatMap utf8EncodeChar := by
  induction h with
  | nil =>
    rw [List.flatMap_cons, utf8EncodeChar_eq]
    exact List.nil_lt_cons ..
  | cons h ih => exact List.append_left_lt ih
  | rel h => exact utf8EncodeChar_lt h

theorem lt_iff_bytes_lt {s t : String} : s < t ↔ bytes s < bytes t := by
  have hlt {s t : String} (h : s < t) : bytes s < bytes t := by
    rw [bytes_eq, bytes_eq]
    exact flatMap_utf8EncodeChar_lt h
  refine ⟨hlt, fun h => ?_⟩
  rcases lt_trichotomy s t with hst | hst | hst
  · exact hst
  · exact absurd h (hst ▸ List.lt_irrefl _)
  · exact absurd h (List.lt_asymm (hlt hst))

end TabDeck.Text
