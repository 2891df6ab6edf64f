import TabDeck.Proofs.Recycler.Sorted
import TabDeck.Proofs.SortedList.Reference

namespace TabDeck

open Std

variable {I : Type}

/-- All before the start are less than a value, all from there to the end are equal to it, and all others greater. -/
structure IsRun (order : Comparator I) (entries : List I) (a : I) (run : Nat × Nat) : Prop where
  ordered : run.1 ≤ run.2
  within : run.2 ≤ entries.length
  lower : ∀ e ∈ entries.take run.1, order e a = .lt
  equal : ∀ e ∈ (entries.take run.2).drop run.1, order e a = .eq
  higher : ∀ e ∈ entries.drop run.2, order e a = .gt

section Runs

theorem isRun_append {order : Comparator I} {lower equal higher : List I} {a : I}
    (hlower : ∀ e ∈ lower, order e a = .lt) (hequal : ∀ e ∈ equal, order e a = .eq)
    (hhigher : ∀ e ∈ higher, order e a = .gt) :
    IsRun order (lower ++ equal ++ higher) a (lower.length, lower.length + equal.length) := by
  have htake : (lower ++ equal ++ higher).take (lower.length + equal.length) = lower ++ equal := by
    rw [← List.length_append, List.take_left]
  have hdrop : (lower ++ equal ++ higher).drop (lower.length + equal.length) = higher := by
    rw [← List.length_append, List.drop_left]
  refine ⟨Nat.le_add_right .., ?_, ?_, ?_, ?_⟩
  · rw [List.length_append, List.length_append]
    exact Nat.le_add_right ..
  · rwa [List.append_assoc, List.take_left]
  · rwa [htake, List.drop_left]
  · rwa [hdrop]

variable {order : Comparator I} [TransCmp order] {entries : List I}

theorem isRun_equalRun (h : order.Sorted entries) (a : I) :
    IsRun order entries a ((SortedList.mk order entries).equalRun a) := by
  have hrun : IsRun order (order.withRun a (order.equals a entries) entries) a
      ((order.lower a entries).length, (order.lower a entries).length + (order.equals a entries).length) :=
    isRun_append Comparator.lower_holds Comparator.equals_holds Comparator.higher_holds
  rw [h.split a] at hrun
  rwa [SortedList.equalRun_eq (l := ⟨order, entries⟩) h a]

theorem partitionPoint_eq_run (h : order.Sorted entries) (a : I) :
    partitionPoint (fun e => order e a != .gt) entries = ((SortedList.mk order entries).equalRun a).2 := by
  have hlength := congrArg List.length (h.partition a).1
  rw [List.length_take_of_le (partitionPoint_le_length _ _), List.length_append] at hlength
  rw [hlength, SortedList.equalRun_eq (l := ⟨order, entries⟩) h a]

theorem insert_behind [Model I] (h : order.Sorted entries) {a : I}
    (hnew : (SortedList.mk order entries).position? a = none) :
    let run := (SortedList.mk order entries).equalRun a
    ((SortedList.mk order entries).insert a).1.entries = entries.take run.2 ++ a :: entries.drop run.2 := by
  rw [SortedList.insert, hnew]
  exact insertIdx_eq_take_drop (isRun_equalRun h a).within a

end Runs

namespace Recycler.Attached

variable {W A X C V P E : Type} [DecidableEq I]

theorem order_inflate {text : I → String} {hooks : Hooks W A X C I V P E} {a : Attached A X C I V} {w : W}
    {item : I} {container : Option C} {params : P} (hbefore : a.recycler.view? item = none)
    (hafter : (a.inflate text hooks w item container params).state.recycler.view? item ≠ none) :
    (a.inflate text hooks w item container params).state.order = a.order.insertIdx (a.insertionIndex item) item := by
  cases hx : a.recycler.adapter with
  | none =>
    simp only [inflate, obtain_no_adapter hbefore hx] at hafter
    exact absurd hbefore hafter
  | some x =>
    cases hm : hooks.inflate w x (container.or a.defaultContainer) item (a.insertionIndex item) params with
    | mk w' made =>
      cases made with
      | error e =>
        simp only [inflate, obtain_error hbefore hx hm] at hafter
        exact absurd hbefore hafter
      | ok view => exact (inflate_made hbefore hx hm).order

theorem run_bounds [Model I] (order : Comparator I) [TransCmp order] {items : List I} (h : order.Sorted items)
    (item : I) :
    let l : SortedList I := ⟨order, items⟩
    let run := l.equalRun item
    IsRun order items item run ∧
    (l.position? item = none → (l.insert item).1.entries = items.take run.2 ++ item :: items.drop run.2) ∧
    ∀ {A X C V : Type} (a : Attached A X C I V), a.comparator = some order → a.order = items →
      a.insertionIndex item = run.2 ∧
      ∀ {W P E : Type} (text : I → String) (hooks : Hooks W A X C I V P E) (w : W) (container : Option C)
        (params : P),
        let after := (a.inflate text hooks w item container params).state
        a.recycler.view? item = none → after.recycler.view? item ≠ none →
          after.order = items.take run.2 ++ item :: items.drop run.2 := by
  intro l run
  have hrun : IsRun order items item run := isRun_equalRun h item
  refine ⟨hrun, insert_behind h, ?_⟩
  rintro A X C V a hcmp rfl
  have hindex : a.insertionIndex item = run.2 := by
    rw [insertionIndex_eq hcmp]
    exact partitionPoint_eq_run h item
  refine ⟨hindex, fun text hooks w container params => ?_⟩
  intro after hbefore hafter
  rw [← insertIdx_eq_take_drop hrun.within, ← hindex]
  exact order_inflate hbefore hafter

deriving instance DecidableEq for SortedList.Row

theorem run_bounds_rows :
    let order : Comparator SortedList.Row := compareOn SortedList.Row.rank
    let items : List SortedList.Row := [⟨1, 1⟩, ⟨2, 5⟩, ⟨2, 6⟩, ⟨4, 2⟩]
    let a : Attached Unit Unit Unit SortedList.Row Nat := { create () none (some order) with order := items }
    order.Sorted items ∧ IsRun order items ⟨2, 9⟩ (1, 3) ∧ a.insertionIndex ⟨2, 9⟩ = 3 ∧
      ((SortedList.mk order items).insert ⟨2, 9⟩).1.entries = [⟨1, 1⟩, ⟨2, 5⟩, ⟨2, 6⟩, ⟨2, 9⟩, ⟨4, 2⟩] := by
  intro order items a
  have hsorted : order.Sorted items := by
    rw [Comparator.Sorted]
    decide +kernel
  have hrun : (SortedList.mk order items).equalRun ⟨2, 9⟩ = (1, 3) := by decide +kernel
  have hnew : (SortedList.mk order items).position? ⟨2, 9⟩ = none := by decide +kernel
  obtain ⟨hbounds, hinsert, hrecycler⟩ := run_bounds order hsorted ⟨2, 9⟩
  have hindex : a.insertionIndex ⟨2, 9⟩ = _ := (hrecycler a rfl rfl).1
  rw [hrun] at hbounds hinsert hindex
  exact ⟨hsorted, hbounds, hindex, hinsert hnew⟩

end Recycler.Attached

end TabDeck
