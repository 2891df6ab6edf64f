import TabDeck.Proofs.Cache.Recency

namespace TabDeck

section Sublists

variable {T : Type} {l r : List T}

theorem take_sublist_take {n m : Nat} (h : l.Sublist r) (hcut : r.length + n ≤ l.length + m) :
    (l.take n).Sublist (r.take m) := by
  induction h generalizing n m with
  | slnil => simp
  | @cons l r x h ih =>
    have hlen := h.length_le
    rw [List.length_cons] at hcut
    obtain ⟨m, rfl⟩ : ∃ k, m = k + 1 := ⟨m - 1, by omega⟩
    rw [List.take_succ_cons]
    exact (ih (by omega)).cons x
  | @cons_cons l r x h ih =>
    have hlen := h.length_le
    rw [List.length_cons, List.length_cons] at hcut
    cases n with
    | zero => simp
    | succ n =>
      obtain ⟨m, rfl⟩ : ∃ k, m = k + 1 := ⟨m - 1, by omega⟩
      rw [List.take_succ_cons, List.take_succ_cons]
      exact (ih (by omega)).cons_cons x

theorem length_filter_sublist (h : l.Sublist r) (p : T → Bool) :
    (r.filter p).length + l.length ≤ (l.filter p).length + r.length := by
  induction h with
  | slnil => exact Nat.le_refl _
  | cons x h ih =>
    have hle := List.length_filter_le p [x]
    rw [← List.singleton_append, List.filter_append, List.length_append, List.length_append]
    omega
  | cons_cons x h ih =>
    rw [List.filter_cons, List.filter_cons]
    split <;> simp only [List.length_cons] <;> omega

end Sublists

namespace Cache

variable {K D : Type} [DecidableEq K] {small large : Cache K D} {key : K} {value d : D}

structure Within (small large : Cache K D) : Prop where
  entries : small.entries.Sublist large.entries
  distinct : large.keys.Nodup
  room : large.size + small.capacity ≤ small.size + large.capacity

theorem touch_of_peek? {c : Cache K D} (h : c.peek? key = some d) :
    c.touch key = { c with entries := (key, d) :: c.without key } := by
  rw [touch, h]

theorem without_of_peek? {c : Cache K D} (h : c.peek? key = none) : c.without key = c.entries := by
  apply List.filter_eq_self.mpr
  intro e he
  exact (bne_comm ..).trans (List.lookup_eq_none_iff.mp h e he)

theorem length_without_lt {c : Cache K D} (h : c.peek? key = some d) : (c.without key).length < c.size :=
  List.length_filter_lt_length_iff_exists.mpr ⟨(key, d), mem_of_lookup h, by simp⟩

namespace Within

theorem peek? (h : small.Within large) (hd : small.peek? key = some d) : large.peek? key = some d :=
  (mem_iff_lookup h.distinct).mp (h.entries.subset (mem_of_lookup hd))

theorem without (h : small.Within large) (key : K) : (small.without key).Sublist (large.without key) ∧
    (large.without key).length + small.capacity ≤ (small.without key).length + large.capacity := by
  have hlen := length_filter_sublist h.entries fun e => e.1 != key
  have hroom := h.room
  refine ⟨h.entries.filter _, ?_⟩
  simp only [Cache.without, size] at *
  omega

theorem distinct_without (h : small.Within large) (key : K) (value : D) :
    (((key, value) :: large.without key).map Prod.fst).Nodup := by
  rw [List.map_cons, keys_without]
  exact List.nodup_cons.mpr ⟨by simp, h.distinct.filter _⟩

theorem put (h : small.Within large) (key : K) (value : D) : (small.put key value).Within (large.put key value) := by
  obtain ⟨hwithout, hroom⟩ := h.without key
  have hcut : ((key, value) :: large.without key).length + small.capacity ≤
      ((key, value) :: small.without key).length + large.capacity := by
    simp only [List.length_cons]
    omega
  refine ⟨take_sublist_take (hwithout.cons_cons (key, value)) hcut, ?_, ?_⟩
  · exact (h.distinct_without key value).sublist ((List.take_sublist ..).map Prod.fst)
  · simp only [size, Cache.put, List.length_take]
    omega

theorem touch (h : small.Within large) (key : K) : (small.touch key).Within (large.touch key) := by
  obtain ⟨hwithout, hroom⟩ := h.without key
  cases hsmall : small.peek? key with
  | some d =>
    rw [touch_of_peek? hsmall, touch_of_peek? (h.peek? hsmall)]
    refine ⟨hwithout.cons_cons (key, d), h.distinct_without key d, ?_⟩
    simp only [size, List.length_cons]
    omega
  | none =>
    rw [touch_of_not_contains (by simp [contains, hsmall])]
    cases hlarge : large.peek? key with
    | none =>
      rw [touch_of_not_contains (by simp [contains, hlarge])]
      exact h
    | some d =>
      -- only the larger cache is hit, and the key comes in front of all keys of the smaller one
      rw [without_of_peek? hsmall] at hwithout
      rw [touch_of_peek? hlarge]
      refine ⟨hwithout.cons (key, d), h.distinct_without key d, ?_⟩
      have hlt := length_without_lt hlarge
      have hold := h.room
      simp only [size, List.length_cons] at *
      omega

theorem pop (h : small.Within large) (key : K) : (small.pop key).Within (large.pop key) := by
  obtain ⟨hwithout, hroom⟩ := h.without key
  refine ⟨hwithout, ?_, hroom⟩
  rw [keys, Cache.pop, keys_without]
  exact h.distinct.filter _

omit [DecidableEq K] in
theorem empty (hsmall : small.entries = []) (hlarge : large.entries = []) (h : small.capacity ≤ large.capacity) :
    small.Within large := by
  refine ⟨?_, ?_, ?_⟩
  · rw [hsmall]
    exact List.nil_sublist _
  · rw [keys, hlarge]
    exact List.nodup_nil
  · rw [size, size, hsmall, hlarge, List.length_nil]
    omega

theorem step (h : small.Within large) (hcapacity : small.capacity ≤ large.capacity) (op : Op K D) :
    (small.step op).Within (large.step op) := by
  cases op with
  | put key value => exact h.put key value
  | get key => exact h.touch key
  | pop key => exact h.pop key
  | contains key => exact h
  | evictAll => exact .empty rfl rfl hcapacity

theorem run (h : small.Within large) (hcapacity : small.capacity ≤ large.capacity) (ops : List (Op K D)) :
    (small.run ops).Within (large.run ops) := by
  induction ops using List.reverseRecOn with
  | nil => exact h
  | append_singleton ops op ih =>
    rw [run_concat, run_concat]
    refine ih.step ?_ op
    rwa [capacity_run, capacity_run]

end Within

theorem run_within {n m : Nat} (hn : 0 < n) (hm : n ≤ m) :
    ∃ small large : Cache K D, create n = .ok small ∧ create m = .ok large ∧ ∀ ops,
      (small.run ops).entries.Sublist (large.run ops).entries ∧
      (∀ key value, (small.run ops).peek? key = some value → (large.run ops).peek? key = some value) ∧
      ∀ key value, (small.run ops).answer? (.get key) = some value →
        (large.run ops).answer? (.get key) = some value := by
  refine ⟨⟨n, [], hn⟩, ⟨m, [], by omega⟩, dif_pos hn, dif_pos (by omega), fun ops => ?_⟩
  have hstart : Within (⟨n, [], hn⟩ : Cache K D) ⟨m, [], by omega⟩ := .empty rfl rfl hm
  have hrun := hstart.run hm ops
  exact ⟨hrun.entries, fun key value => hrun.peek?, fun key value => hrun.peek?⟩

theorem run_within_drifting :
    let ops : List (Op Nat String) := [.put 1 "one", .put 2 "two", .put 3 "three", .get 1, .contains 2, .pop 3,
      .put 4 "four", .put 5 "five", .get 2]
    0 < 2 ∧ 2 ≤ 4 ∧ ∃ small large : Cache Nat String, create 2 = .ok small ∧ create 4 = .ok large ∧
      (small.run ops).entries.Sublist (large.run ops).entries ∧
      (small.run ops).keys = [5, 4] ∧ (large.run ops).keys = [2, 5, 4, 1] := by
  intro ops
  obtain ⟨small, large, hs, hl, hrun⟩ := run_within (K := Nat) (D := String) (by decide : 0 < 2) (by decide : 2 ≤ 4)
  obtain rfl : ⟨2, [], by decide⟩ = small := Except.ok.inj hs
  obtain rfl : ⟨4, [], by decide⟩ = large := Except.ok.inj hl
  exact ⟨by decide, by decide, _, _, hs, hl, (hrun ops).1, by decide, by decide⟩

end Cache

end TabDeck
