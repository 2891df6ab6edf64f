import TabDeck.Proofs.Order.Boundary
import TabDeck.Proofs.Order.Sorted

namespace TabDeck.Comparator

open Std

variable {α : Type} {order : Comparator α} [TransCmp order] {l : List α}

theorem Sorted.partition (h : order.Sorted l) (a : α) :
    l.take (partitionPoint (fun e => order e a != .gt) l) = order.lower a l ++ order.equals a l ∧
      l.drop (partitionPoint (fun e => order e a != .gt) l) = order.higher a l := by
  have hsplit := h.split a
  have hpoint : partitionPoint (fun e => order e a != .gt) l = (order.lower a l ++ order.equals a l).length := by
    rw [← congrArg (partitionPoint _) hsplit]
    apply partitionPoint_append
    · intro e he
      rcases List.mem_append.mp he with he | he
      · simp [lower_holds e he]
      · simp [equals_holds e he]
    · intro e he
      simp [higher_holds e he]
  rw [hpoint]
  constructor
  · rw [← congrArg (List.take _) hsplit]
    exact List.take_left
  · rw [← congrArg (List.drop _) hsplit]
    exact List.drop_left

theorem Sorted.mem_take_iff (h : order.Sorted l) {a e : α} :
    e ∈ l.take (partitionPoint (fun e => order e a != .gt) l) ↔ e ∈ l ∧ order e a ≠ .gt := by
  rw [(h.partition a).1, List.mem_append, lower, equals, List.mem_filter, List.mem_filter, ← and_or_left]
  refine and_congr_right fun _ => ?_
  cases order e a <;> simp

theorem Sorted.insertIdx_eq_withRun (h : order.Sorted l) (a : α) :
    l.insertIdx (partitionPoint (fun e => order e a != .gt) l) a =
      order.withRun a (order.equals a l ++ [a]) l := by
  obtain ⟨htake, hdrop⟩ := h.partition a
  rw [insertIdx_eq_take_drop (partitionPoint_le_length _ _), htake, hdrop]
  simp [Comparator.withRun]

theorem Sorted.insertIdx (h : order.Sorted l) (a : α) :
    order.Sorted (l.insertIdx (partitionPoint (fun e => order e a != .gt) l) a) := by
  rw [h.insertIdx_eq_withRun a]
  apply h.withRun
  intro e he
  rcases List.mem_append.mp he with he | he
  · exact equals_holds e he
  · obtain rfl := List.mem_singleton.mp he
    exact ReflCmp.compare_self

theorem stableSort_concat (l : List α) (a : α) :
    order.stableSort (l ++ [a]) = (order.stableSort l).insertIdx
      (partitionPoint (fun e => order e a != .gt) (order.stableSort l)) a := by
  have hself : order a a = .eq := ReflCmp.compare_self
  rw [(sorted_stableSort l).insertIdx_eq_withRun a]
  symm
  apply withRun_stableSort (f := fun run => run ++ [a])
  · intro run hrun e he
    rcases List.mem_append.mp he with he | he
    · exact hrun e he
    · obtain rfl := List.mem_singleton.mp he
      exact hself
  · intro r
    rw [equals_append, equals_self_cons]
    rfl
  · intro b r hb
    have hne : order a b ≠ .eq := fun h => hb (OrientedCmp.eq_symm h)
    rw [equals_append, equals_cons_of_ne hne]
    exact List.append_nil _

end TabDeck.Comparator
