import TabDeck.Proofs.Cache.Entries
import TabDeck.Proofs.Binder.Outcomes

namespace TabDeck.Binder

variable {L K D T P : Type}

namespace Entry

def Stores (e : Entry L K D T P) (k : K) (v : D) : Prop :=
  ∃ i d, e.Delivered i d ∧ d.request.key = k ∧ d.data = some v

variable {e : Entry L K D T P} {i : Nat} {r : Request K T P} {k : K} {v : D}

theorem Loads.not_stores (h : e.Loads r) : ¬ e.Stores k v := by
  rintro ⟨i, d, hd, -⟩
  exact h.not_delivers hd.delivers

theorem Dropped.not_stores {d : Delivery K D T P} (h : e.Dropped i d) : ¬ e.Stores k v := by
  rintro ⟨i', d', hd, -⟩
  exact nomatch h.canceled.symm.trans hd.active

theorem Delivered.not_stores (h : e.Delivered i ⟨r, none⟩) : ¬ e.Stores k v := by
  rintro ⟨i', d', hd, -, hv⟩
  obtain rfl := h.delivers.unique hd.delivers
  cases hv

end Entry

/-- The value of the most recent delivery of data for a key, since the cache was last cleared. -/
def LastStored (es : List (Entry L K D T P)) (k : K) (v : D) : Prop :=
  ∃ past e rest, es = past ++ e :: rest ∧ e.Stores k v ∧
    ∀ e' ∈ rest, e'.move ≠ .call .clearCache ∧ ∀ v', ¬ e'.Stores k v'

section LastStored

variable {es : List (Entry L K D T P)} {e : Entry L K D T P} {k : K} {v : D}

theorem LastStored.of_stores (h : e.Stores k v) : LastStored (es ++ [e]) k v :=
  ⟨es, e, [], rfl, h, nofun⟩

theorem LastStored.concat (h : LastStored es k v) (hm : e.move ≠ .call .clearCache)
    (hs : ∀ v', ¬ e.Stores k v') :
    LastStored (es ++ [e]) k v := by
  obtain ⟨past, u, rest, rfl, hu, hrest⟩ := h
  refine ⟨past, u, rest ++ [e], List.append_assoc .., hu, ?_⟩
  intro e' he'
  rcases List.mem_append.mp he' with he' | he'
  · exact hrest e' he'
  · obtain rfl := List.mem_singleton.mp he'
    exact ⟨hm, hs⟩

theorem LastStored.exists_stores (h : LastStored es k v) : ∃ e ∈ es, e.Stores k v := by
  obtain ⟨past, e, rest, rfl, he, -⟩ := h
  exact ⟨e, by simp, he⟩

end LastStored

variable [DecidableEq L] [DecidableEq K] {hooks : Hooks L K D T P} {survives : Bool}

section Steps

variable {e : Entry L K D T P} {k : K} {v : D}

theorem peek?_result_of_not_delivered (hq : e.before.reactions = []) (hd : ∀ i d, ¬ e.Delivered i d)
    (hm : e.move ≠ .call .clearCache) :
    (e.result hooks survives).binder.cache.peek? k = e.before.cache.peek? k := by
  cases e.kind hooks with
  | vetoed r h => rw [h.result hq]
  | hit r data h =>
    rw [h.result hq]
    exact Cache.peek?_touch
  | missed r h => rw [h.result hq]
  | skipped i r h => rw [h.result]
  | panicked i r h => rw [h.result]
  | computed i r data h => rw [h.result]
  | dropped i d h => rw [h.result]
  | delivered i d h => exact absurd h (hd i d)
  | canceled h => rw [Entry.result, h, move_cancel hq]
  | cleared h => exact absurd h hm
  | listening listener h => rw [Entry.result, h, move_setListener]
  | idle h => rw [h.result]

theorem cache_delivered {i : Nat} {d : Delivery K D T P} (h : e.Delivered i d) (hq : e.before.reactions = []) :
    (e.result hooks survives).binder.cache = stored e.before.cache d := by
  rw [h.result hq]

theorem peek?_result_of_not_stores (hq : e.before.reactions = []) (hs : ∀ k v, ¬ e.Stores k v)
    (hm : e.move ≠ .call .clearCache) :
    (e.result hooks survives).binder.cache.peek? k = e.before.cache.peek? k := by
  by_cases hdel : ∃ i d, e.Delivered i d
  · obtain ⟨i, ⟨r, data⟩, h⟩ := hdel
    rw [cache_delivered h hq]
    cases data with
    | none => rfl
    | some v => exact absurd ⟨i, _, h, rfl, rfl⟩ (hs r.key v)
  · exact peek?_result_of_not_delivered hq (fun i d h => hdel ⟨i, d, h⟩) hm

theorem stores_or_peek? (hq : e.before.reactions = [])
    (hd : (e.result hooks survives).binder.cache.peek? k = some v) :
    e.Stores k v ∨ e.before.cache.peek? k = some v ∧ e.move ≠ .call .clearCache ∧ ∀ v', ¬ e.Stores k v' := by
  by_cases hm : e.move = .call .clearCache
  · rw [Entry.result, hm, move_clearCache] at hd
    cases hd
  · by_cases hdel : ∃ i d, e.Delivered i d
    · obtain ⟨i, ⟨r, data⟩, h⟩ := hdel
      rw [cache_delivered h hq] at hd
      cases data with
      | none => exact .inr ⟨hd, hm, fun v' => h.not_stores⟩
      | some data =>
        -- the value is the one that is put, or another key that has not been dropped
        by_cases hk : k = r.key
        · subst hk
          have hv : some data = some v := Cache.peek?_put_self.symm.trans hd
          exact .inl ⟨i, ⟨r, some data⟩, h, rfl, hv⟩
        · refine .inr ⟨Cache.peek?_put_of_ne hk hd, hm, ?_⟩
          rintro v' ⟨i', d', h', hkey, -⟩
          obtain rfl := h.delivers.unique h'.delivers
          exact hk hkey.symm
    · have hno (i : Nat) (d : Delivery K D T P) : ¬ e.Delivered i d := fun h => hdel ⟨i, d, h⟩
      rw [peek?_result_of_not_delivered hq hno hm] at hd
      refine .inr ⟨hd, hm, ?_⟩
      rintro v' ⟨i, d, h, -⟩
      exact hno i d h

theorem cache_result (hq : e.before.reactions = []) :
    (e.result hooks survives).binder.cache = e.before.cache ∨
      ∃ op, (e.result hooks survives).binder.cache = e.before.cache.step op := by
  cases e.kind hooks with
  | hit r data h => exact .inr ⟨.get r.key, by rw [h.result hq]; rfl⟩
  | delivered i d h =>
    obtain ⟨r, data⟩ := d
    rw [cache_delivered h hq]
    cases data with
    | none => exact .inl rfl
    | some v => exact .inr ⟨.put r.key v, rfl⟩
  | cleared h => exact .inr ⟨.evictAll, by rw [Entry.result, h, move_clearCache]; rfl⟩
  | vetoed r h => exact .inl (by rw [h.result hq])
  | missed r h => exact .inl (by rw [h.result hq])
  | skipped i r h => exact .inl (by rw [h.result])
  | panicked i r h => exact .inl (by rw [h.result])
  | computed i r data h => exact .inl (by rw [h.result])
  | dropped i d h => exact .inl (by rw [h.result])
  | canceled h => exact .inl (by rw [Entry.result, h, move_cancel hq])
  | listening listener h => exact .inl (by rw [Entry.result, h, move_setListener])
  | idle h => exact .inl (by rw [h.result])

theorem capacity_result (hq : e.before.reactions = []) :
    (e.result hooks survives).binder.cache.capacity = e.before.cache.capacity := by
  rcases cache_result hq with h | ⟨op, h⟩
  · rw [h]
  · rw [h, Cache.capacity_step]

theorem size_result (hq : e.before.reactions = []) (hs : e.before.cache.size ≤ e.before.cache.capacity) :
    (e.result hooks survives).binder.cache.size ≤ e.before.cache.capacity := by
  rcases cache_result hq with h | ⟨op, h⟩
  · rw [h]
    exact hs
  · rw [h]
    exact Cache.size_step op hs

end Steps

end TabDeck.Binder
