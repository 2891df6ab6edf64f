import TabDeck.Order

namespace TabDeck

variable {α : Type}

theorem holds_iff_lt_boundary {p : α → Bool} {xs ys : List α} (hx : ∀ a ∈ xs, p a = true)
    (hy : ∀ a ∈ ys, p a = false) {k : Nat} (hk : k < (xs ++ ys).length) :
    p (xs ++ ys)[k] = true ↔ k < xs.length := by
  by_cases h : k < xs.length
  · rw [List.getElem_append_left h]
    exact iff_of_true (hx _ (List.getElem_mem h)) h
  · rw [List.getElem_append_right (by omega)]
    simp [hy _ (List.getElem_mem _), h]

theorem partitionPoint_append (p : α → Bool) (xs ys : List α) (hx : ∀ a ∈ xs, p a = true)
    (hy : ∀ a ∈ ys, p a = false) : partitionPoint p (xs ++ ys) = xs.length := by
  generalize hl : xs ++ ys = l
  fun_induction partitionPoint p l generalizing xs ys with
  | case1 => simp_all
  | case2 a ha =>
    have h := holds_iff_lt_boundary hx hy (k := 0) (by simp [hl])
    have hn := congrArg List.length hl
    simp only [hl, List.getElem_cons_zero, ha, true_iff] at h
    simp only [List.length_append, List.length_cons, List.length_nil] at hn
    omega
  | case3 a ha =>
    have h := holds_iff_lt_boundary hx hy (k := 0) (by simp [hl])
    simp only [hl, List.getElem_cons_zero, ha, Bool.false_eq_true, false_iff] at h
    omega
  | case4 a b rest hm hp ih =>
    have h := holds_iff_lt_boundary hx hy (k := (rest.length + 2) / 2) (by rw [hl]; exact hm)
    simp only [hl, hp, true_iff] at h
    rw [ih (xs.drop ((rest.length + 2) / 2)) ys (fun c hc => hx c (List.mem_of_mem_drop hc)) hy
      (by rw [← hl, List.drop_append_of_le_length (by omega)]), List.length_drop]
    omega
  | case5 a b rest hm hp ih =>
    have h := holds_iff_lt_boundary hx hy (k := (rest.length + 2) / 2) (by rw [hl]; exact hm)
    simp only [hl, hp, Bool.false_eq_true, false_iff] at h
    have ht : xs ++ ys.take (rest.length + 2 - (rest.length + 2) / 2 - xs.length) =
        (a :: b :: rest).take (rest.length + 2 - (rest.length + 2) / 2) := by
      rw [← hl, List.take_append, List.take_of_length_le (l := xs) (by omega)]
    exact ih xs _ hx (fun c hc => hy c (List.mem_of_mem_take hc)) ht

theorem partitionPoint_le_length (p : α → Bool) (l : List α) : partitionPoint p l ≤ l.length := by
  fun_induction partitionPoint p l with
  | case1 => exact Nat.le_refl 0
  | case2 a ha => exact Nat.le_refl 1
  | case3 a ha => exact Nat.zero_le 1
  | case4 a b rest hm hp ih =>
    rw [List.length_drop] at ih
    simp only [List.length_cons] at hm ih ⊢
    omega
  | case5 a b rest hm hp ih =>
    rw [List.length_take] at ih
    exact Nat.le_trans ih (Nat.min_le_right ..)

theorem insertIdx_append_length (xs ys : List α) (a : α) : (xs ++ ys).insertIdx xs.length a = xs ++ a :: ys := by
  induction xs with
  | nil => rfl
  | cons x xs ih => simpa using ih

theorem insertIdx_eq_take_drop {k : Nat} {l : List α} (h : k ≤ l.length) (a : α) :
    l.insertIdx k a = l.take k ++ a :: l.drop k := by
  have hinsert := insertIdx_append_length (l.take k) (l.drop k) a
  rwa [List.take_append_drop, List.length_take_of_le h] at hinsert

end TabDeck
