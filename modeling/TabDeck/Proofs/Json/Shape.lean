import Mathlib.Algebra.Order.Ring.Int
import TabDeck.Json.Shape

namespace TabDeck.Json

variable {α : Type}

section Integers

theorem asInteger?_int (low high n : Int) :
    asInteger? low high (.int n) = if low ≤ n ∧ n ≤ high then some n else none := by
  rw [asInteger?]
  simp only [Bool.and_eq_true, decide_eq_true_eq]

theorem asWord?_int (bits : Nat) (n : Int) :
    asWord? bits (.int n) = if 0 ≤ n ∧ n < 2 ^ bits then some n else none := by
  have hpow : Int.pow 2 bits = 2 ^ bits := rfl
  rw [asWord?, hpow, asInteger?_int]
  simp only [Int.le_sub_one_iff]

theorem asSigned?_int (bits : Nat) (n : Int) :
    asSigned? bits (.int n) = if -2 ^ (bits - 1) ≤ n ∧ n < 2 ^ (bits - 1) then some n else none := by
  have hpow : Int.pow 2 (bits - 1) = 2 ^ (bits - 1) := rfl
  rw [asSigned?, hpow, asInteger?_int]
  simp only [Int.le_sub_one_iff]

theorem fits_iff {n : Int} : fits n = true ↔ -2 ^ 63 ≤ n ∧ n < 2 ^ 64 := by
  have hlow : Int.pow 2 63 = 2 ^ 63 := rfl
  have hhigh : Int.pow 2 64 = 2 ^ 64 := rfl
  rw [fits, hlow, hhigh]
  simp only [Bool.and_eq_true, decide_eq_true_eq]

theorem eq_int_of_ofInteger? {n : Int} {j : Json} (h : ofInteger? n = some j) : j = .int n := by
  rw [ofInteger?] at h
  split at h
  · exact (Option.some.inj h).symm
  · cases h

theorem ofInteger?_eq_none_iff {n : Int} :
    ofInteger? n = none ↔ ¬(0 ≤ n ∧ n < 2 ^ 64) ∧ ¬(-2 ^ 63 ≤ n ∧ n < 2 ^ 63) := by
  have hfits : ofInteger? n = none ↔ ¬fits n = true := by
    rw [ofInteger?]
    split <;> simp [*]
  rw [hfits, fits_iff]
  omega

end Integers

theorem asChar?_ofChar (c : Char) : asChar? (ofChar c) = some c := by
  rw [ofChar, asChar?, String.toList_singleton]

theorem asOption?_ofOption {read : Json → Option α} {write : α → Json} {a : Option α}
    (h : ∀ x ∈ a, write x ≠ .null ∧ read (write x) = some x) : asOption? read (ofOption (a.map write)) = some a := by
  cases a with
  | none => rfl
  | some x =>
    obtain ⟨hnull, hread⟩ := h x rfl
    rw [Option.map_some, ofOption, asOption?, hread]
    · rfl
    · exact hnull

end TabDeck.Json
