import TabDeck.Cache
import TabDeck.Proofs.Lookup

namespace TabDeck.Cache

variable {K D : Type} [BEq K] {c : Cache K D} {key other : K} {value d : D}

section Lookup

variable [LawfulBEq K]

theorem peek?_touch : (c.touch key).peek? other = c.peek? other := by
  unfold touch
  cases hd : c.peek? key with
  | none => rfl
  | some d =>
    by_cases h : other = key
    · rw [h, hd]
      exact List.lookup_cons_self
    · change List.lookup other ((key, d) :: c.without key) = c.entries.lookup other
      rw [lookup_cons_of_ne h]
      exact lookup_filter_of_ne h c.entries

theorem peek?_put_self : (c.put key value).peek? key = some value := by
  obtain ⟨n, hn⟩ := Nat.exists_eq_succ_of_ne_zero (Nat.ne_of_gt c.capacity_pos)
  change List.lookup key (((key, value) :: c.without key).take c.capacity) = some value
  rw [hn, List.take_succ_cons]
  exact List.lookup_cons_self

theorem peek?_put_of_ne (h : other ≠ key) (hd : (c.put key value).peek? other = some d) :
    c.peek? other = some d := by
  have hall : ((key, value) :: c.without key).lookup other = some d :=
    (List.take_prefix c.capacity _).lookup_eq_some hd
  rw [lookup_cons_of_ne h] at hall
  rwa [peek?, ← lookup_filter_of_ne h c.entries]

end Lookup

theorem capacity_touch : (c.touch key).capacity = c.capacity := by
  unfold touch
  cases c.peek? key <;> rfl

theorem size_put : (c.put key value).size ≤ c.capacity := by
  unfold size put
  rw [List.length_take]
  exact Nat.min_le_left ..

theorem size_touch [LawfulBEq K] (h : c.size ≤ c.capacity) : (c.touch key).size ≤ c.capacity := by
  unfold touch
  cases hd : c.peek? key with
  | none => exact h
  | some d =>
    have hmem : (key, d) ∈ c.entries := mem_of_lookup hd
    have hlt : (c.without key).length < c.entries.length :=
      List.length_filter_lt_length_iff_exists.mpr ⟨(key, d), hmem, by simp⟩
    exact Nat.le_trans hlt h

section Step

variable (op : Op K D)

theorem capacity_step : (c.step op).capacity = c.capacity := by
  cases op with
  | get key => exact capacity_touch
  | _ => rfl

theorem size_step [LawfulBEq K] (h : c.size ≤ c.capacity) : (c.step op).size ≤ c.capacity := by
  cases op with
  | put key value => exact size_put
  | get key => exact size_touch h
  | pop key => exact Nat.le_trans (List.length_filter_le ..) h
  | contains key => exact h
  | evictAll => exact Nat.zero_le _

end Step

end TabDeck.Cache
