import TabDeck.Proofs.Json.ReadsBack

namespace TabDeck.Json

open TabDeck.Number (Numeral)

/-- The number is one of the type that is read. -/
inductive Holds : (Document → Option Int) → Int → Prop where
  | narrow (low high n : Int) (hlow : low ≤ n) (hhigh : n ≤ high) (h : fits n = true) : Holds (integer? low high) n
  | wide (low high n : Int) (hlow : low ≤ n) (hhigh : n ≤ high) : Holds (wide? low high) n

theorem Holds.reads {read : Document → Option Int} {n : Int} (h : Holds read n) :
    read (.number (intText n)) = some n := by
  cases h with
  | narrow low high n hlow hhigh h =>
    have hscalar : scalar? (.number (intText n)) = some (.int n) := by
      rw [scalar?, ofDocument?, Numeral.ofText?_intText]
      exact ofNumeral?_int h
    rw [integer?, hscalar]
    simp [asInteger?, hlow, hhigh]
  | wide low high n hlow hhigh =>
    have hsign : (decide (n < 0) && decide (0 ≤ low)) = false := by
      rw [Bool.and_eq_false_iff, decide_eq_false_iff_not, decide_eq_false_iff_not]
      omega
    rw [wide?, Numeral.ofText?_intText]
    simp only [Option.bind_eq_bind, Option.bind_some, Number.ofDigits_toDigits, value_natAbs, hsign, hlow, hhigh]
    rfl

theorem scalar?_glyphs (s : String) : scalar? (.string (glyphs s)) = some (.str s) := by
  rw [scalar?, ofDocument?, string?_glyphs, Option.map_some]

section Words

theorem fits_of_bounds {n : Int} (hlow : -2147483648 ≤ n) (hhigh : n ≤ 4294967295) : fits n = true := by
  have hleast : (-9223372036854775808 : Int) ≤ n := by omega
  have hgreatest : n < 18446744073709551616 := by omega
  exact Bool.and_eq_true_iff.mpr ⟨decide_eq_true hleast, decide_eq_true hgreatest⟩

theorem toNat_le_unsigned32 (n : UInt32) : (n.toNat : Int) ≤ Int.pow 2 32 - 1 := by
  have hlt : n.toNat < 4294967296 := n.toNat_lt
  change (n.toNat : Int) ≤ 4294967295
  omega

theorem fits_unsigned32 (n : UInt32) : fits n.toNat = true := by
  have hlow : (-2147483648 : Int) ≤ n.toNat := by omega
  exact fits_of_bounds hlow (toNat_le_unsigned32 n)

theorem unsigned32_holds (n : UInt32) : Holds (integer? 0 (Int.pow 2 32 - 1)) n.toNat :=
  .narrow _ _ _ (Int.natCast_nonneg _) (toNat_le_unsigned32 n) (fits_unsigned32 n)

theorem unsigned32?_intText (n : UInt32) : unsigned32? (.number (intText n.toNat)) = some n := by
  rw [unsigned32?, (unsigned32_holds n).reads, Option.map_some, Int.toNat_natCast]
  exact congrArg some (UInt32.ofNat_toNat)

theorem signed32?_intText (n : Int32) : signed32? (.number (intText n.toInt)) = some n := by
  have hlow : -Int.pow 2 31 ≤ n.toInt := n.minValue_le_toInt
  have hhigh : n.toInt ≤ Int.pow 2 31 - 1 := n.toInt_le
  have hbound : Int.pow 2 31 - 1 ≤ 4294967295 := by decide
  have hfits : fits n.toInt = true := fits_of_bounds hlow (Int.le_trans hhigh hbound)
  have hholds : Holds (integer? (-Int.pow 2 31) (Int.pow 2 31 - 1)) n.toInt := .narrow _ _ _ hlow hhigh hfits
  rw [signed32?, hholds.reads, Option.map_some, Int32.ofInt_toInt]

end Words

theorem legible_key {n : Int} {g : Glyph} (h : g ∈ (intText n).map Glyph.plain) : g.Legible := by
  obtain ⟨c, hc, rfl⟩ := List.mem_map.mp h
  have hword := isWordChar_intText hc
  have hcontrol : ∀ n < 0x20, isWordChar (Char.ofNat n) = false := by decide
  refine .plain c ?_ ?_ (Nat.le_of_not_lt fun hlt => ?_)
  · rintro rfl
    exact absurd hword (by decide)
  · rintro rfl
    exact absurd hword (by decide)
  · have hplain := hcontrol c.toNat hlt
    rw [Char.ofNat_toNat, hword] at hplain
    cases hplain

theorem integerKey?_intText {read : Document → Option Int} {n : Int} (h : Holds read n) :
    integerKey? read ((intText n).map Glyph.plain) = some n := by
  have hplain : ((intText n).map Glyph.plain).mapM Glyph.plain? = some (intText n) := by
    refine mapM_of_forall₂ ?_
    rw [List.forall₂_map_left_iff, List.forall₂_same]
    exact fun _ _ => rfl
  rw [integerKey?, hplain]
  exact h.reads

theorem integerMap?_eq {α : Type} (readKey : Document → Option Int) (read : Nat → Document → Option α) :
    integerMap? readKey read = members? (integerKey? readKey) read := by
  funext room d
  cases room <;> cases d <;> rfl

def Document.record (fields : List (String × Document)) : Document := .object (fields.map fun f => (glyphs f.1, f.2))

section Record

variable {fields fields' : List (String × Document)}

theorem legible_record (h : ∀ f ∈ fields, f.2.Legible) : (Document.record fields).Legible := by
  refine .object _ (fun m hm => ?_) fun m hm => ?_
  · obtain ⟨f, -, rfl⟩ := List.mem_map.mp hm
    exact fun _ => legible_glyphs
  · obtain ⟨f, hf, rfl⟩ := List.mem_map.mp hm
    exact h f hf

theorem atMostOne?_perm (h : fields.Perm fields') (name : String) :
    atMostOne? fields name = atMostOne? fields' name := by
  have hfound := h.filter (·.1 == name)
  rw [atMostOne?, atMostOne?]
  generalize fields.filter (·.1 == name) = found, fields'.filter (·.1 == name) = found' at hfound
  match found, found' with
  | [], found' => rw [hfound.nil_eq]
  | [f], found' => rw [List.singleton_perm.mp hfound]
  | _ :: _ :: _, _ :: _ :: _ => rfl
  | _ :: _ :: _, [_] => cases hfound.length_eq
  | _ :: _ :: _, [] => cases hfound.length_eq

theorem record?_perm (h : fields.Perm fields') (names : List String) (least room : Nat) :
    record? names least room (.record fields) = record? names least room (.record fields') := by
  have hnamed (fields : List (String × Document)) :
      (fields.map fun f => (glyphs f.1, f.2)).mapM (fun m => (string? m.1).map (·, m.2)) = some fields := by
    refine mapM_of_forall₂ ?_
    rw [List.forall₂_map_left_iff, List.forall₂_same]
    exact fun f _ => congrArg (Option.map (·, f.2)) (string?_glyphs f.1)
  cases room with
  | zero => rfl
  | succ room =>
    have hnames : names.mapM (atMostOne? fields) = names.mapM (atMostOne? fields') :=
      congrArg names.mapM (funext (atMostOne?_perm h))
    simp only [record?, Document.record, hnamed]
    exact hnames

end Record

end TabDeck.Json
