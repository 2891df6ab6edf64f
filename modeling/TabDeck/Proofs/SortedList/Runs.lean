import TabDeck.Proofs.Order.Boundary
import TabDeck.Proofs.SortedList.Twins
/-!
What the operations of sorted lists do to the run of entries that are equal to a model; the rest of the list stays.
-/
namespace TabDeck

open Std

variable {α : Type} [Model α]

namespace SortedList

variable {l : SortedList α} [TransCmp l.order]

omit [Model α] in
theorem equalRun_eq (h : l.order.Sorted l.entries) (a : α) :
    l.equalRun a = ((l.order.lower a l.entries).length,
      (l.order.lower a l.entries).length + (l.order.equals a l.entries).length) := by
  have hsplit := h.split a
  rw [Comparator.withRun, List.append_assoc] at hsplit
  have hfirst : partitionPoint (fun e => l.order e a == .lt) l.entries =
      (l.order.lower a l.entries).length := by
    rw [← congrArg (partitionPoint _) hsplit]
    apply partitionPoint_append
    · intro e he
      simp [Comparator.lower_holds e he]
    · intro e he
      rcases List.mem_append.mp he with he | he
      · simp [Comparator.equals_holds e he]
      · simp [Comparator.higher_holds e he]
  have hdrop : l.entries.drop (l.order.lower a l.entries).length =
      l.order.equals a l.entries ++ l.order.higher a l.entries := by
    rw [← congrArg (List.drop _) hsplit]
    exact List.drop_left
  simp only [equalRun, hfirst, hdrop]
  rw [partitionPoint_append]
  · intro e he
    simp [Comparator.equals_holds e he]
  · intro e he
    simp [Comparator.higher_holds e he]

theorem position?_eq (h : l.order.Sorted l.entries) (a : α) :
    l.position? a = ((l.order.equals a l.entries).findIdx? (isTwin l.order a)).map
      ((l.order.lower a l.entries).length + ·) := by
  have hrun : (l.entries.take ((l.order.lower a l.entries).length + (l.order.equals a l.entries).length)).drop
      (l.order.lower a l.entries).length = l.order.equals a l.entries := by
    rw [List.drop_take, ← congrArg (List.drop _) (h.split a), Comparator.withRun, List.append_assoc,
      List.drop_left, Nat.add_sub_cancel_left, List.take_left]
  simp only [position?, equalRun_eq h, hrun, findIdx?_isTwin fun e he _ => Comparator.equals_holds e he]

theorem insert_entries (h : l.order.Sorted l.entries) (a : α) :
    (l.insert a).1.entries =
      l.order.withRun a (putTwin l.order a (l.order.equals a l.entries)) l.entries := by
  have hsplit := h.split a
  rw [insert, position?_eq h, equalRun_eq h]
  cases hi : (l.order.equals a l.entries).findIdx? (isTwin l.order a) with
  | none =>
    have hput := putTwin_of_none (List.findIdx?_eq_none_iff.mp hi)
    simp only [Option.map_none]
    rw [hput, ← congrArg (List.insertIdx · _ a) hsplit, Comparator.withRun, ← List.length_append,
      insertIdx_append_length]
    simp [Comparator.withRun]
  | some i =>
    obtain ⟨hlt, -, -⟩ := List.findIdx?_eq_some_iff_getElem.mp hi
    simp only [Option.map_some]
    rw [putTwin_eq_set hi, ← congrArg (List.set · _ a) hsplit]
    simp [Comparator.withRun, hlt]

theorem remove_entries (h : l.order.Sorted l.entries) (a : α) :
    (l.remove a).1.entries =
      l.order.withRun a (eraseTwin l.order a (l.order.equals a l.entries)) l.entries := by
  have hsplit := h.split a
  rw [remove, position?_eq h, eraseTwin, List.eraseP_eq_eraseIdx]
  cases hi : (l.order.equals a l.entries).findIdx? (isTwin l.order a) with
  | none => simpa only [Option.map_none] using hsplit.symm
  | some i =>
    obtain ⟨hlt, -, -⟩ := List.findIdx?_eq_some_iff_getElem.mp hi
    simp only [Option.map_some]
    rw [← congrArg (List.eraseIdx · _) hsplit, Comparator.withRun, List.append_assoc,
      List.eraseIdx_append_of_length_le (Nat.le_add_right _ _), Nat.add_sub_cancel_left,
      List.eraseIdx_append_of_lt_length hlt, Comparator.withRun, List.append_assoc]

end SortedList

end TabDeck
