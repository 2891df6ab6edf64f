import Mathlib.Data.List.Basic
import Mathlib.Data.List.TakeWhile
import TabDeck.Json.Value

namespace TabDeck

namespace Number

theorem ofDigits_toDigits (n : Nat) : ofDigits (Nat.toDigits 10 n) = n := by
  have h := Nat.ofDigitChars_toDigits (b := 10) (n := n) (by omega) (by omega)
  rw [Nat.ofDigitChars_eq_foldl] at h
  rw [ofDigits]
  refine Eq.trans (congrArg (fun f => List.foldl f 0 (Nat.toDigits 10 n)) ?_) h
  funext m c
  rw [digitValue, Nat.mul_comm]

theorem head?_toDigits_ne_zero {n : Nat} (h : n ≠ 0) : (Nat.toDigits 10 n).head? ≠ some '0' := by
  induction n using Nat.strongRecOn with
  | ind n ih =>
    rw [Nat.toDigits_eq_if (by omega)]
    by_cases hn : n < 10
    · have hdigit : ∀ d < 10, d ≠ 0 → Nat.digitChar d ≠ '0' := by decide
      rw [if_pos hn, List.head?_cons]
      exact fun he => hdigit n hn h (Option.some.inj he)
    · rw [if_neg hn, List.head?_append_of_ne_nil _ Nat.toDigits_ne_nil]
      exact ih (n / 10) (by omega) (by omega)

namespace Numeral

theorem unsigned?_toDigits (negative : Bool) (n : Nat) :
    unsigned? negative (Nat.toDigits 10 n) = some ⟨negative, Nat.toDigits 10 n, [], none⟩ := by
  have hdigits : ∀ c ∈ Nat.toDigits 10 n, c.isDigit = true := fun c hc =>
    Nat.isDigit_of_mem_toDigits (by omega) (by omega) hc
  have hwhole : (Nat.toDigits 10 n == [] ||
      ((Nat.toDigits 10 n).head? == some '0' && (Nat.toDigits 10 n).length != 1)) = false := by
    by_cases hn : n = 0
    · subst hn
      decide
    · simp [Nat.toDigits_ne_nil, head?_toDigits_ne_zero hn]
  rw [unsigned?, List.takeWhile_eq_self_iff.mpr hdigits, List.dropWhile_eq_nil_iff.mpr hdigits]
  simp only [hwhole]
  rfl

theorem ofText?_intText (n : Int) :
    ofText? (Json.intText n) = some ⟨n < 0, Nat.toDigits 10 n.natAbs, [], none⟩ := by
  rw [Json.intText]
  by_cases hn : n < 0
  · rw [if_pos hn, ofText?, unsigned?_toDigits]
    simp [hn]
  · rw [if_neg hn, ofText?, unsigned?_toDigits]
    · simp [hn]
    · intro rest he
      have hd : '-' ∈ Nat.toDigits 10 n.natAbs := he ▸ List.mem_cons_self
      exact absurd (Nat.isDigit_of_mem_toDigits (by omega) (by omega) hd) (by decide)

end Numeral

end Number

namespace Json

open TabDeck.Number (Numeral)

theorem isWordChar_intText {n : Int} {c : Char} (h : c ∈ intText n) : isWordChar c = true := by
  have hdigit {d : Char} (hd : d ∈ Nat.toDigits 10 n.natAbs) : isWordChar d = true := by
    have hd' := Nat.isDigit_of_mem_toDigits (by omega) (by omega) hd
    simp [isWordChar, Char.isAlphanum, hd']
  rw [intText] at h
  by_cases hn : n < 0
  · rw [if_pos hn] at h
    rcases List.mem_cons.mp h with rfl | h
    · rfl
    · exact hdigit h
  · rw [if_neg hn] at h
    exact hdigit h

theorem value_natAbs (n : Int) : (if (decide (n < 0)) = true then -(n.natAbs : Int) else n.natAbs) = n := by
  by_cases hn : n < 0
  · simp only [hn, decide_true, if_true]
    omega
  · simp only [hn, decide_false, Bool.false_eq_true, if_false]
    omega

theorem ofNumeral?_int {n : Int} (h : fits n = true) :
    ofNumeral? ⟨n < 0, Nat.toDigits 10 n.natAbs, [], none⟩ = some (.int n) := by
  have hzero : (decide (n < 0) && (n.natAbs : Int) == 0) = false := by
    by_cases hn : n < 0
    · simp; omega
    · simp [hn]
  rw [ofNumeral?]
  simp only [Number.ofDigits_toDigits, value_natAbs, h, hzero]
  rfl

theorem word?_number {text : List Char} (h : (Numeral.ofText? text).isSome = true) :
    word? text = some (.number text) := by
  have hne (other : List Char) (ho : Numeral.ofText? other = none) : text ≠ other := by
    rintro rfl
    rw [ho] at h
    cases h
  obtain ⟨n, hn⟩ := Option.isSome_iff_exists.mp h
  rw [word?, if_neg (hne _ rfl), if_neg (hne _ rfl), if_neg (hne _ rfl), hn]
  rfl

end Json

end TabDeck
