import Mathlib.Data.List.Sigma

namespace TabDeck

variable {K D : Type} [BEq K] [LawfulBEq K] {key other : K} {d : D} {es : List (K × D)}

theorem lookup_filter_of_ne (h : other ≠ key) (es : List (K × D)) :
    (es.filter fun e => e.1 != key).lookup other = es.lookup other := by
  induction es with
  | nil => rfl
  | cons e es ih =>
    obtain ⟨k, v⟩ := e
    by_cases hk : k = key
    · have hkey : (other == k) = false := by simpa [hk] using h
      rw [List.filter_cons_of_neg (by simp [hk]), ih, List.lookup_cons, hkey]
    · rw [List.filter_cons_of_pos (by simp [hk]), List.lookup_cons, List.lookup_cons, ih]

theorem lookup_cons_of_ne (h : other ≠ key) : ((key, d) :: es).lookup other = es.lookup other := by
  have hkey : (other == key) = false := by simpa using h
  rw [List.lookup_cons, hkey]

theorem lookup_concat_of_ne (h : other ≠ key) : (es ++ [(key, d)]).lookup other = es.lookup other := by
  rw [List.lookup_append, lookup_cons_of_ne h]
  exact Option.or_none

theorem lookup_concat_self (h : es.lookup key = none) : (es ++ [(key, d)]).lookup key = some d := by
  rw [List.lookup_append, h, Option.none_or, List.lookup_cons_self]

theorem lookup_filter_self (es : List (K × D)) : (es.filter fun e => e.1 != key).lookup key = none := by
  rw [List.lookup_eq_none_iff]
  intro e he
  have hne := (List.mem_filter.mp he).2
  rw [bne_iff_ne] at hne
  simpa using Ne.symm hne

theorem mem_of_lookup (h : es.lookup key = some d) : (key, d) ∈ es := by
  obtain ⟨l, l', rfl, -⟩ := List.lookup_eq_some_iff.mp h
  exact List.mem_append_right _ List.mem_cons_self

theorem mem_iff_lookup (hkeys : (es.map Prod.fst).Nodup) : (key, d) ∈ es ↔ es.lookup key = some d := by
  refine ⟨fun hmem => ?_, mem_of_lookup⟩
  induction es with
  | nil => exact absurd hmem List.not_mem_nil
  | cons e es ih =>
    obtain ⟨hfirst, hrest⟩ := List.nodup_cons.mp hkeys
    rcases List.mem_cons.mp hmem with rfl | hmem
    · exact List.lookup_cons_self
    · have hne : key ≠ e.1 := by
        rintro rfl
        exact hfirst (List.mem_map.mpr ⟨_, hmem, rfl⟩)
      exact (lookup_cons_of_ne hne).trans (ih hrest hmem)

theorem isSome_lookup_iff : (es.lookup key).isSome = true ↔ key ∈ es.map Prod.fst := by
  rw [List.lookup_isSome_iff, List.mem_map]
  constructor
  · rintro ⟨e, he, hk⟩
    exact ⟨e, he, (beq_iff_eq.mp hk).symm⟩
  · rintro ⟨e, he, rfl⟩
    exact ⟨e, he, beq_self_eq_true e.1⟩

theorem dlookup_map_toSigma {K D : Type} [DecidableEq K] (es : List (K × D)) (key : K) :
    (es.map Prod.toSigma).dlookup key = es.lookup key := by
  induction es with
  | nil => rfl
  | cons e es ih =>
    by_cases hkey : key = e.1
    · subst hkey
      exact (List.dlookup_cons_eq ..).trans List.lookup_cons_self.symm
    · exact ((List.dlookup_cons_ne _ _ hkey).trans ih).trans (lookup_cons_of_ne hkey).symm

end TabDeck
