import TabDeck.Proofs.SortedList.Reference

namespace TabDeck

open Std

variable {α : Type} {order : Comparator α}

theorem Comparator.Sorted.stableSort_eq {l : List α} (h : order.Sorted l) : order.stableSort l = l :=
  List.mergeSort_of_pairwise h

variable [Model α]

theorem findIdx?_twin [TransCmp order] {l : List α} (h : order.Sorted l) (a : α) :
    l.findIdx? (isTwin order a) =
      ((order.equals a l).findIdx? (isTwin order a)).map ((order.lower a l).length + ·) := by
  -- Only the run of equals can hold a twin.
  have hlower : (order.lower a l).findIdx? (isTwin order a) = none :=
    List.findIdx?_eq_none_iff.mpr fun e he => by simp [isTwin, Comparator.lower_holds e he]
  have hhigher : (order.higher a l).findIdx? (isTwin order a) = none :=
    List.findIdx?_eq_none_iff.mpr fun e he => by simp [isTwin, Comparator.higher_holds e he]
  rw [← congrArg (List.findIdx? _) (h.split a), Comparator.withRun, List.append_assoc, List.findIdx?_append,
    List.findIdx?_append, hlower, hhigher]
  simp [Nat.add_comm]

namespace SortedList

variable {l : SortedList α}

structure Tidy (order : Comparator α) (l : SortedList α) : Prop where
  order_eq : l.order = order
  sorted : order.Sorted l.entries
  distinct : Distinct order l.entries

def TwinAt (order : Comparator α) (l : SortedList α) (a : α) (i : Nat) : Prop :=
  ∃ e, l.entries[i]? = some e ∧ order e a = .eq ∧ Model.isSame e a = true

theorem twinAt_of_findIdx? {a : α} {i : Nat} (h : l.entries.findIdx? (isTwin order a) = some i) :
    TwinAt order l a i := by
  obtain ⟨hi, ht, -⟩ := List.findIdx?_eq_some_iff_getElem.mp h
  exact ⟨l.entries[i], List.getElem?_eq_getElem hi, isTwin_iff.mp ht⟩

theorem not_twinAt_of_findIdx? {a : α} (h : l.entries.findIdx? (isTwin order a) = none) (i : Nat) :
    ¬TwinAt order l a i := by
  rintro ⟨e, he, ht⟩
  have hne := List.findIdx?_eq_none_iff.mp h e (List.mem_of_getElem? he)
  rw [isTwin_iff.mpr ht] at hne
  cases hne

variable [TransCmp order]

theorem Tidy.changeAll_eq (h : Tidy order l) (cs : List (Change α)) :
    (l.changeAll cs).1 = ⟨order, order.stableSort (cs.foldl (naiveChange order) l.entries)⟩ := by
  have hl : l = ⟨order, order.stableSort l.entries⟩ := eq_mk h.order_eq h.sorted.stableSort_eq.symm
  calc (l.changeAll cs).1 = (changeAll ⟨order, order.stableSort l.entries⟩ cs).1 :=
        congrArg (fun l => (l.changeAll cs).1) hl
    _ = ⟨order, order.stableSort (cs.foldl (naiveChange order) l.entries)⟩ := changeAll_stableSort l.entries cs

theorem Tidy.position?_eq_findIdx? (h : Tidy order l) (a : α) :
    l.position? a = l.entries.findIdx? (isTwin order a) := by
  obtain ⟨rfl, hsorted, -⟩ := h
  rw [position?_eq hsorted, findIdx?_twin hsorted]

section Reach

variable (same : Equivalence fun a b : α => Model.isSame a b = true)
include same

protected theorem Tidy.changeAll (h : Tidy order l) (cs : List (Change α)) : Tidy order (l.changeAll cs).1 := by
  rw [h.changeAll_eq cs]
  exact ⟨rfl, Comparator.sorted_stableSort _,
    distinct_stableSort same (distinct_foldl_naiveChange same h.distinct cs)⟩

protected theorem Tidy.change (h : Tidy order l) (c : Change α) : Tidy order (l.change c).1 := h.changeAll same [c]

protected theorem Tidy.commitAll (h : Tidy order l) (es : List (Editor α)) : Tidy order (l.commitAll es) := by
  induction es generalizing l with
  | nil => exact h
  | cons e es ih =>
    have hcommit : Tidy order (l.commit e).1 := by
      rw [commit_eq]
      exact h.changeAll same e.changes
    exact ih hcommit

theorem tidy_commitAll (es : List (Editor α)) : Tidy order ((create order).commitAll es) := by
  have hcreate : Tidy order (create order) := ⟨rfl, List.Pairwise.nil, List.Pairwise.nil⟩
  exact hcreate.commitAll same es

theorem Tidy.twinAt_unique (h : Tidy order l) {a : α} {i j : Nat} (hi : TwinAt order l a i) (hj : TwinAt order l a j) :
    i = j := by
  obtain ⟨e, he, ht⟩ := hi
  obtain ⟨e', he', ht'⟩ := hj
  exact h.distinct.index_unique same he he' (isTwin_iff.mpr ht) (isTwin_iff.mpr ht')

theorem Tidy.position?_eq_some_iff (h : Tidy order l) {a : α} {i : Nat} :
    l.position? a = some i ↔ ∀ j, TwinAt order l a j ↔ j = i := by
  rw [h.position?_eq_findIdx?]
  constructor
  · intro hi j
    have htwin := twinAt_of_findIdx? hi
    constructor
    · exact fun hj => h.twinAt_unique same hj htwin
    · rintro rfl
      exact htwin
  · intro hi
    have htwin := (hi i).mpr rfl
    cases hfound : l.entries.findIdx? (isTwin order a) with
    | none => exact absurd htwin (not_twinAt_of_findIdx? hfound i)
    | some j => rw [(hi j).mp (twinAt_of_findIdx? hfound)]

end Reach

theorem position?_scan (order : Comparator α) [TransCmp order]
    (same : Equivalence fun a b : α => Model.isSame a b = true) (es : List (Editor α)) (a : α) :
    let l := (create order).commitAll es
    l.position? a = l.entries.findIdx? (fun e => order e a == .eq && Model.isSame e a) ∧
    (∀ i, l.position? a = some i ↔ ∀ j, TwinAt order l a j ↔ j = i) ∧
    ((∀ e ∈ l.entries, Model.isSame e a = true → order e a = .eq) →
      l.position? a = l.entries.findIdx? fun e => Model.isSame e a) := by
  intro l
  have htidy : Tidy order l := tidy_commitAll same es
  have hscan := htidy.position?_eq_findIdx? a
  exact ⟨hscan, fun i => htidy.position?_eq_some_iff same, fun hequal => hscan.trans (findIdx?_isTwin hequal)⟩

theorem position?_scan_rows :
    let order := compareOn Row.rank
    let l := (create order).commitAll [Editor.ofEdits [.addAll [⟨2, 7⟩, ⟨1, 5⟩, ⟨0, 4⟩, ⟨1, 7⟩]]]
    (∀ j, TwinAt order l ⟨1, 7⟩ j ↔ j = 2) ∧ (∀ e ∈ l.entries, Model.isSame e ⟨1, 5⟩ = true → order e ⟨1, 5⟩ = .eq) ∧
      l.position? ⟨1, 5⟩ = l.entries.findIdx? fun e => Model.isSame e ⟨1, 5⟩ := by
  intro order l
  have hseven : l.position? ⟨1, 7⟩ = some 2 := by decide +kernel
  have hequal : ∀ e ∈ l.entries, Model.isSame e ⟨1, 5⟩ = true → order e ⟨1, 5⟩ = .eq := by decide +kernel
  exact ⟨((position?_scan order Row.isSame_equivalence _ ⟨1, 7⟩).2.1 2).mp hseven, hequal,
    (position?_scan order Row.isSame_equivalence _ ⟨1, 5⟩).2.2 hequal⟩

end SortedList

end TabDeck
