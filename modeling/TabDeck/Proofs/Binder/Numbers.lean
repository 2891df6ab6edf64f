import Mathlib.Data.List.InsertIdx
import TabDeck.Proofs.Binder.Journal

namespace TabDeck.Binder.Journal

variable {α : Type} {q : List (Nat × α)} {l : List α} {i n : Nat} {a b : α}

theorem requeue_keep {served k : Option Nat} {after : List α} (hs : served = none) (h : after = l) :
    requeue q served k l after = q := by
  subst hs h
  simp [requeue]

theorem requeue_push {served k : Option Nat} {after : List α} (hs : served = none) (hk : k = some n)
    (h : after = l ++ [a]) : requeue q served k l after = q ++ [(n, a)] := by
  subst hs hk h
  simp [requeue]

theorem requeue_serve {served k : Option Nat} {after : List α} (hs : served = some i) (h : after = l.eraseIdx i) :
    requeue q served k l after = q.eraseIdx i := by
  subst hs h
  rw [requeue, List.drop_eq_nil_of_le (List.length_eraseIdx_le l i)]
  simp

theorem requeue_none {served k : Option Nat} {before after : List α} (hk : k = none)
    (hs : ∀ i, served = some i → q[i]? = none) : requeue q served k before after = q := by
  subst hk
  cases served with
  | none => exact List.append_nil q
  | some i =>
    rw [requeue, Option.elim_some, List.eraseIdx_of_length_le (List.getElem?_eq_none_iff.mp (hs i rfl))]
    exact List.append_nil q

structure Numbers (q : List (Nat × α)) (l : List α) : Prop where
  items : q.map Prod.snd = l
  nodup : (q.map Prod.fst).Nodup

theorem Numbers.nil : Numbers ([] : List (Nat × α)) [] := ⟨rfl, List.nodup_nil⟩

theorem Numbers.push (h : Numbers q l) (hn : ∀ b, (n, b) ∉ q) : Numbers (q ++ [(n, a)]) (l ++ [a]) where
  items := by rw [List.map_append, h.items]; rfl
  nodup := by
    rw [List.map_append]
    refine List.nodup_append.mpr ⟨h.nodup, List.pairwise_singleton _ _, ?_⟩
    intro m hm m' hm' heq
    obtain ⟨⟨_, b⟩, hb, rfl⟩ := List.mem_map.mp hm
    obtain rfl := List.mem_singleton.mp hm'
    exact hn b (heq ▸ hb)

theorem Numbers.serve (h : Numbers q l) (i : Nat) : Numbers (q.eraseIdx i) (l.eraseIdx i) where
  items := by rw [← h.items, List.eraseIdx_map]
  nodup := by
    rw [← List.eraseIdx_map]
    exact h.nodup.eraseIdx i

theorem Numbers.exists_number (h : Numbers q l) (hl : l[i]? = some b) : ∃ n, q[i]? = some (n, b) := by
  rw [← h.items, List.getElem?_map] at hl
  obtain ⟨⟨n, _⟩, hq, rfl⟩ := Option.map_eq_some_iff.mp hl
  exact ⟨n, hq⟩

theorem Numbers.number_eq_none (h : Numbers q l) (hl : l[i]? = none) : q[i]?.map Prod.fst = none := by
  rw [← h.items, List.getElem?_map] at hl
  rw [Option.map_eq_none_iff.mp hl]
  rfl

theorem Numbers.notMem_serve (h : Numbers q l) (hq : q[i]? = some (n, b)) : (n, a) ∉ q.eraseIdx i := by
  intro ha
  -- the number would stand at two places
  obtain ⟨j, hj, hja⟩ := List.mem_eraseIdx_iff_getElem?.mp ha
  have hi : (q.map Prod.fst)[i]? = some n := by rw [List.getElem?_map, hq]; rfl
  have hj' : (q.map Prod.fst)[j]? = some n := by rw [List.getElem?_map, hja]; rfl
  obtain ⟨hlt, -⟩ := List.getElem?_eq_some_iff.mp hj'
  exact hj ((List.getElem?_inj hlt h.nodup).mp (hj'.trans hi.symm))

theorem mem_requeue {served k : Option Nat} {before after : List α} (hk : k ≠ some n)
    (hs : ∀ i m b, served = some i → q[i]? = some (m, b) → k = some m) :
    (n, a) ∈ requeue q served k before after ↔ (n, a) ∈ q := by
  have hnew : (n, a) ∉ k.toList.flatMap fun n => (after.drop before.length).map (n, ·) := by
    intro h
    obtain ⟨m, hm, h⟩ := List.mem_flatMap.mp h
    obtain ⟨b, -, hb⟩ := List.mem_map.mp h
    obtain ⟨rfl, rfl⟩ := Prod.mk.inj hb
    exact hk (Option.mem_toList.mp hm)
  have hold : (n, a) ∈ served.elim q q.eraseIdx ↔ (n, a) ∈ q := by
    cases served with
    | none => rfl
    | some i =>
      refine ⟨List.mem_of_mem_eraseIdx, fun h => List.mem_eraseIdx_iff_getElem?.mpr ?_⟩
      obtain ⟨j, hj⟩ := List.mem_iff_getElem?.mp h
      refine ⟨j, ?_, hj⟩
      rintro rfl
      exact hk (hs _ _ _ rfl hj)
  rw [requeue, List.mem_append, hold]
  exact or_iff_left hnew

end TabDeck.Binder.Journal
