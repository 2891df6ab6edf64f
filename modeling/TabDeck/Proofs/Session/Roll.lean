import Mathlib.Data.List.Induction
import Mathlib.Data.List.Nodup
/-!
Rolls: everything that was ever entered, each with whether it is still there.
-/
namespace TabDeck.Session

variable {A : Type}

abbrev Roll (A : Type) := List (A × Bool)

namespace Roll

def enter (roll : Roll A) (a : A) : Roll A := roll ++ [(a, true)]

def strike (roll : Roll A) (n : Nat) : Roll A := roll.modify n fun e => (e.1, false)

def strikeAll (roll : Roll A) : Roll A := roll.map fun e => (e.1, false)

def present (roll : Roll A) : List Nat := (List.range roll.length).filter fun n => roll[n]?.any Prod.snd

def remaining (roll : Roll A) : List A := (roll.filter Prod.snd).map Prod.fst

def place? (roll : Roll A) (n : Nat) : Option Nat :=
  if roll[n]?.any Prod.snd then some ((roll.take n).countP Prod.snd) else none

def first? (roll : Roll String) (name : String) : Option Nat := roll.findIdx? fun e => e.2 && e.1 == name

theorem mem_present {roll : Roll A} {n : Nat} : n ∈ roll.present ↔ ∃ a, roll[n]? = some (a, true) := by
  simp only [present, List.mem_filter, List.mem_range, Option.any_eq_true, Prod.exists]
  constructor
  · rintro ⟨-, a, b, h, rfl⟩
    exact ⟨a, h⟩
  · rintro ⟨a, h⟩
    exact ⟨(List.getElem?_eq_some_iff.mp h).1, a, true, h, rfl⟩

theorem nodup_present (roll : Roll A) : roll.present.Nodup := List.nodup_range.filter _

theorem present_concat (roll : Roll A) (e : A × Bool) :
    present (roll ++ [e]) = roll.present ++ if e.2 then [roll.length] else [] := by
  have hbefore : (List.range roll.length).filter (fun n => (roll ++ [e])[n]?.any Prod.snd) = roll.present := by
    apply List.filter_congr
    intro n hn
    rw [List.getElem?_append_left (List.mem_range.mp hn)]
  rw [present, List.length_append, List.length_singleton, List.range_succ, List.filter_append, hbefore]
  simp [List.filter_singleton]

theorem present_enter (roll : Roll A) (a : A) : (roll.enter a).present = roll.present ++ [roll.length] :=
  present_concat roll (a, true)

theorem present_strike (roll : Roll A) (n : Nat) : (roll.strike n).present = roll.present.filter (· ≠ n) := by
  rw [present, present, strike, List.length_modify, List.filter_filter]
  apply List.filter_congr
  intro m _
  rw [List.getElem?_modify]
  by_cases hm : n = m
  · subst hm
    cases roll[n]? <;> simp
  · cases roll[m]? <;> simp [hm, Ne.symm hm]

theorem present_strikeAll (roll : Roll A) : roll.strikeAll.present = [] := by
  apply List.filter_eq_nil_iff.mpr
  intro n _
  rw [strikeAll, List.getElem?_map]
  cases roll[n]? <;> simp

theorem length_present (roll : Roll A) : roll.present.length = roll.countP Prod.snd := by
  induction roll using List.reverseRecOn with
  | nil => rfl
  | append_singleton roll e ih =>
    rw [present_concat, List.length_append, ih, List.countP_append]
    cases he : e.2 <;> simp [he]

theorem map_strike (roll : Roll A) (n : Nat) : (roll.strike n).map Prod.fst = roll.map Prod.fst := by
  apply List.ext_getElem?
  intro m
  rw [strike, List.getElem?_map, List.getElem?_modify, List.getElem?_map]
  cases roll[m]? with
  | none => rfl
  | some e => by_cases hm : n = m <;> simp [hm]

theorem map_strikeAll (roll : Roll A) : roll.strikeAll.map Prod.fst = roll.map Prod.fst := by
  simp [strikeAll]

theorem filterMap_present (roll : Roll A) :
    roll.present.filterMap ((roll.map Prod.fst)[·]?) = roll.remaining := by
  induction roll using List.reverseRecOn with
  | nil => rfl
  | append_singleton roll e ih =>
    have hbefore : (present roll).filterMap (((roll ++ [e]).map Prod.fst)[·]?) = remaining roll := by
      rw [← ih]
      apply List.filterMap_congr
      intro n hn
      obtain ⟨a, ha⟩ := mem_present.mp hn
      have hlt := (List.getElem?_eq_some_iff.mp ha).1
      rw [List.map_append, List.getElem?_append_left (by simpa using hlt)]
    rw [present_concat, List.filterMap_append, hbefore, remaining, remaining, List.filter_append, List.map_append]
    cases he : e.2 <;> simp [he]

section Search

variable {q : Nat → Bool} {p : A → Bool} {roll : Roll A}

theorem find?_present (h : ∀ n e, roll[n]? = some e → q n = p e.1) :
    roll.present.find? q = roll.findIdx? fun e => e.2 && p e.1 := by
  induction roll using List.reverseRecOn with
  | nil => rfl
  | append_singleton roll e ih =>
    have hlast : q roll.length = p e.1 := h _ _ List.getElem?_concat_length
    have hbefore (n : Nat) (f : A × Bool) (hf : roll[n]? = some f) : q n = p f.1 := by
      apply h n f
      rw [List.getElem?_append_left (List.getElem?_eq_some_iff.mp hf).1, hf]
    rw [present_concat, List.find?_append, List.findIdx?_append, ih hbefore]
    cases he : e.2 <;> cases hp : p e.1 <;> simp [he, hp, hlast]

theorem findIdx?_eq_bind (q : Nat → Bool) (ns : List Nat) :
    ns.findIdx? q = (ns.find? q).bind fun n => ns.findIdx? (· == n) := by
  induction ns with
  | nil => rfl
  | cons m ns ih =>
    cases hm : q m with
    | true => simp [List.findIdx?_cons, hm]
    | false =>
      rw [List.findIdx?_cons, List.find?_cons, hm, ih]
      cases hfind : ns.find? q with
      | none => rfl
      | some n =>
        have hne : m ≠ n := by
          rintro rfl
          have hq := List.find?_some hfind
          rw [hm] at hq
          cases hq
        simp [List.findIdx?_cons, hne]

theorem findIdx?_present (roll : Roll A) (n : Nat) : roll.present.findIdx? (· == n) = roll.place? n := by
  induction roll using List.reverseRecOn with
  | nil => rfl
  | append_singleton roll e ih =>
    rw [present_concat, List.findIdx?_append, ih, length_present]
    rcases Nat.lt_trichotomy n roll.length with hn | rfl | hn
    · have hne : roll.length ≠ n := by omega
      have hlater : (if e.2 then [roll.length] else []).findIdx? (· == n) = none := by
        cases e.2 <;> simp [hne]
      rw [hlater, place?, place?, List.getElem?_append_left hn, List.take_append_of_le_length (by omega)]
      simp
    · have hnone : place? roll roll.length = none := by simp [place?]
      rw [hnone, place?, List.getElem?_concat_length, List.take_left]
      cases he : e.2 <;> simp [he]
    · have hne : roll.length ≠ n := by omega
      have hnone : place? roll n = none := by simp [place?, List.getElem?_eq_none (Nat.le_of_lt hn)]
      have hnone' : place? (roll ++ [e]) n = none := by
        rw [place?, List.getElem?_eq_none (by simpa using Nat.succ_le_of_lt hn)]
        rfl
      rw [hnone, hnone']
      cases e.2 <;> simp [hne]

theorem eraseIdx_present {n i : Nat} (h : roll.place? n = some i) :
    roll.present.eraseIdx i = (roll.strike n).present := by
  rw [← findIdx?_present] at h
  obtain ⟨hi, hn, -⟩ := List.findIdx?_eq_some_iff_getElem.mp h
  rw [present_strike, ← beq_iff_eq.mp hn, ← (nodup_present roll).erase_getElem i hi,
    (nodup_present roll).erase_eq_filter]
  apply List.filter_congr
  intro m _
  rw [bne, decide_not, beq_eq_decide]

end Search

end Roll

end TabDeck.Session
