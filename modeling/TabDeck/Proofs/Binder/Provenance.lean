import TabDeck.Proofs.Binder.Storage

namespace TabDeck.Binder

variable {L K D T P : Type} [DecidableEq L] [DecidableEq K] {hooks : Hooks L K D T P} {survives : Bool}

section Journals

variable {cache : Cache K D} {ms : List (Move L K T P)} {e : Entry L K D T P}

theorem journal_capacity (ms : List (Move L K T P)) :
    (journal hooks survives cache ms).binder.cache.capacity = cache.capacity := by
  induction ms using List.reverseRecOn with
  | nil => rfl
  | append_singleton ms m ih =>
    rw [journal_concat, ← ih]
    exact capacity_result (e := (journal hooks survives cache ms).entry m) (journal_quiet ms)

theorem journal_size (hc : cache.entries = []) (ms : List (Move L K T P)) :
    (journal hooks survives cache ms).binder.cache.size ≤ cache.capacity := by
  induction ms using List.reverseRecOn with
  | nil =>
    change cache.entries.length ≤ cache.capacity
    rw [hc]
    exact Nat.zero_le _
  | append_singleton ms m ih =>
    have hcap : (journal hooks survives cache ms).binder.cache.capacity = cache.capacity := journal_capacity ms
    rw [← hcap] at ih ⊢
    rw [journal_concat]
    exact size_result (e := (journal hooks survives cache ms).entry m) (journal_quiet ms) ih

theorem journal_cached (hc : cache.entries = []) {k : K} {v : D}
    (h : (journal hooks survives cache ms).binder.cache.peek? k = some v) :
    LastStored (journal hooks survives cache ms).entries k v := by
  induction ms using List.reverseRecOn with
  | nil =>
    change cache.entries.lookup k = some v at h
    rw [hc] at h
    cases h
  | append_singleton ms m ih =>
    rw [journal_concat] at h ⊢
    rcases stores_or_peek? (e := (journal hooks survives cache ms).entry m) (journal_quiet ms) h with hs | hs
    · exact .of_stores hs
    · exact (ih hs.1).concat hs.2.1 hs.2.2

omit [DecidableEq L] in
theorem Life.of_computed {l : List (Entry L K D T P)} {d : Delivery K D T P} (h : Life hooks l (.computed d)) :
    ∃ w ∈ l, ∃ i, w.Computed hooks i d.request d.data := by
  cases h with
  | computed past step => exact ⟨_, List.mem_concat_self, _, step⟩

theorem computed_of_delivers {i : Nat} {d : Delivery K D T P}
    (he : e ∈ (journal hooks survives cache ms).entries) (h : e.Delivers i d) :
    ∃ count, hooks.compute count d.request.key d.request.params = .data d.data := by
  have hd := h.delivery
  rw [before_eq_binder he] at hd
  have hj : (journal hooks survives cache (ms.take e.time)).Consistent hooks := journal_consistent _
  obtain ⟨n, hn⟩ := hj.deliveries.exists_number hd
  obtain ⟨w, -, k, hw⟩ := (hj.computed hn).life.of_computed
  exact ⟨w.before.computations, hw.data⟩

theorem cached_of_hit (hc : cache.entries = []) {r : Request K T P} {v : D}
    (he : e ∈ (journal hooks survives cache ms).entries) (h : e.Hit hooks r v) :
    LastStored ((journal hooks survives cache ms).entries.take e.time) r.key v := by
  have hv := h.cached
  rw [before_eq_binder he] at hv
  rw [← journal_take]
  exact journal_cached hc hv

theorem compute_of_stores {k : K} {v : D} (he : e ∈ (journal hooks survives cache ms).entries)
    (h : e.Stores k v) : ∃ count params, hooks.compute count k params = .data (some v) := by
  obtain ⟨i, d, hd, rfl, hv⟩ := h
  obtain ⟨count, hcompute⟩ := computed_of_delivers he hd.delivers
  exact ⟨count, d.request.params, by rw [hcompute, hv]⟩

omit [DecidableEq L] [DecidableEq K] in
theorem mem_outcome {listener : Option L} {r : Request K T P} {data data' : Option D} {k : K} {t : T} {p : P}
    (h : .presented k data t p ∈ outcome hooks listener r data') : k = r.key ∧ data = data' := by
  cases listener with
  | none =>
    cases List.mem_singleton.mp h
    exact ⟨rfl, rfl⟩
  | some l =>
    rcases List.mem_cons.mp h with h | h
    · cases h
      exact ⟨rfl, rfl⟩
    · cases List.mem_singleton.mp h

theorem compute_of_presented (hc : cache.entries = []) {k : K} {data : Option D} {t : T} {p : P}
    (he : e ∈ (journal hooks survives cache ms).entries)
    (h : .presented k data t p ∈ (e.result hooks survives).events) :
    ∃ count params, hooks.compute count k params = .data data := by
  have hq := entry_quiet he
  have hshown : .presented k data t p ∈ e.shown hooks survives :=
    List.mem_filter.mpr ⟨List.mem_filter.mpr ⟨h, rfl⟩, rfl⟩
  rcases Entry.hit_or_delivered hq (List.ne_nil_of_mem hshown) with ⟨r, v, hh⟩ | ⟨i, d, hd⟩
  · rw [hh.shown hq] at hshown
    obtain ⟨rfl, rfl⟩ := mem_outcome hshown
    -- what a hit shows was stored by an earlier delivery
    obtain ⟨u, hu, hstores⟩ := (cached_of_hit hc he hh).exists_stores
    exact compute_of_stores (List.mem_of_mem_take hu) hstores
  · rw [hd.shown hq] at hshown
    obtain ⟨rfl, rfl⟩ := mem_outcome hshown
    obtain ⟨count, hcompute⟩ := computed_of_delivers he hd.delivers
    exact ⟨count, d.request.params, hcompute⟩

theorem peek?_of_stores {k : K} {v : D} (hq : e.before.reactions = []) (h : e.Stores k v) :
    (e.result hooks survives).binder.cache.peek? k = some v := by
  obtain ⟨i, d, hd, rfl, hv⟩ := h
  rw [cache_delivered hd hq, Binder.stored, hv]
  exact Cache.peek?_put_self

end Journals

structure Journal.Provenance (hooks : Hooks L K D T P) (survives : Bool) (capacity : Nat) (j : Journal L K D T P) :
    Prop where
  cached (k : K) (v : D) : j.binder.cache.peek? k = some v → LastStored j.entries k v
  stored (e : Entry L K D T P) (k : K) (v : D) : e ∈ j.entries → e.Stores k v →
    (e.result hooks survives).binder.cache.peek? k = some v
  hit (e : Entry L K D T P) (r : Request K T P) (v : D) : e ∈ j.entries → e.Hit hooks r v →
    LastStored (j.entries.take e.time) r.key v ∧
      e.shown hooks survives = outcome hooks e.before.listener r (some v)
  pursued (n : Nat) : j.Pursued hooks n
  missed (n : Nat) (e u : Entry L K D T P) (r : Request K T P) (i : Nat) (d : Delivery K D T P) : e ∈ j.own n →
    e.Missed hooks r → u ∈ j.own n → u.Delivered i d →
      (∃ w ∈ j.own n, ∃ k, w.Works k (hooks.prepared r) ∧
        hooks.compute w.before.computations r.key r.params = .data d.data) ∧
      u.shown hooks survives = outcome hooks u.before.listener (hooks.prepared r) d.data ∧
      shownOf hooks survives (j.own n) = u.shown hooks survives
  untouched (e : Entry L K D T P) : e ∈ j.entries →
    ((∃ r, e.Vetoed hooks r) ∨ (∃ r v, e.Hit hooks r v) ∨ (∃ i d, e.Dropped i d) ∨
      ∃ i r, e.Delivered i ⟨r, none⟩) →
    ∀ k, (e.result hooks survives).binder.cache.peek? k = e.before.cache.peek? k
  bounded : j.binder.cache.size ≤ capacity
  faithful (f : K → Outcome D) : (∀ count k params, hooks.compute count k params = f k) →
    ∀ e ∈ j.entries, ∀ k data t p, .presented k data t p ∈ (e.result hooks survives).events → f k = .data data

theorem journal_provenance {capacity : Nat} {cache : Cache K D} (hc : Cache.create capacity = .ok cache)
    (ms : List (Move L K T P)) :
    let j := journal hooks survives cache ms
    j.binder = ms.foldl (fun b m => (move hooks survives b m).binder) (ofCache cache []) ∧
      j.Provenance hooks survives capacity := by
  have hempty : cache.entries = [] ∧ cache.capacity = capacity := by
    unfold Cache.create at hc
    split at hc
    · cases hc
      exact ⟨rfl, rfl⟩
    · cases hc
  obtain ⟨hentries, rfl⟩ := hempty
  refine ⟨journal_binder ms, ?_, ?_, ?_, journal_pursued ms, ?_, ?_, journal_size hentries ms, ?_⟩
  · intro k v
    exact journal_cached hentries
  · intro e k v he
    exact peek?_of_stores (entry_quiet he)
  · intro e r v he h
    exact ⟨cached_of_hit hentries he h, h.shown (entry_quiet he)⟩
  · intro n e u r i d he hm hu hd
    obtain ⟨s, hmiss, -⟩ := miss_of_mem_own he hm
    have hq : ∀ e ∈ (journal hooks survives cache ms).own n, e.before.reactions = [] := own_quiet
    obtain ⟨w, k, hown, hw, hrequest⟩ := hmiss.of_delivers hm hu hd.delivers
    have hshown : u.shown hooks survives = _ := hd.shown (hq u hu)
    refine ⟨⟨w, by simp [hown], k, hw.works, hw.data⟩, by rw [hshown, hrequest], ?_⟩
    have hbefore : e.shown hooks survives = [] := hm.shown (hq e he)
    rw [hown, shownOf_cons, shownOf_cons, shownOf_cons, hbefore, hw.shown]
    exact List.append_nil _
  · intro e he h k
    have hq := entry_quiet he
    rcases h with ⟨r, h⟩ | ⟨r, v, h⟩ | ⟨i, d, h⟩ | ⟨i, r, h⟩
    · exact peek?_result_of_not_stores hq (fun k v => h.loads.not_stores) (by rw [h.loads]; exact nofun)
    · exact peek?_result_of_not_stores hq (fun k v => h.loads.not_stores) (by rw [h.loads]; exact nofun)
    · exact peek?_result_of_not_stores hq (fun k v => h.not_stores) (by rw [h.delivers.move]; exact nofun)
    · exact peek?_result_of_not_stores hq (fun k v => h.not_stores) (by rw [h.delivers.move]; exact nofun)
  · intro f hf e he k data t p h
    obtain ⟨count, params, hcompute⟩ := compute_of_presented hentries he h
    rw [← hcompute, hf]

def doubling : Hooks Unit Nat Nat Unit Unit where
  compute _ key _ := .data (some (2 * key))
  prepare _ target _ := target
  present _ _ target _ := target
  accepts _ _ _ _ := true

theorem journal_provenance_doubling :
    let ms : List (Move Unit Nat Unit Unit) :=
      [.call (.load 3 () ()), .work 0, .deliver 0, .call (.load 3 () ()), .call (.load 4 () ()), .work 0, .deliver 0]
    let j := journal doubling false ⟨1, [], Nat.one_pos⟩ ms
    Cache.create 1 = .ok (⟨1, [], Nat.one_pos⟩ : Cache Nat Nat) ∧ j.Provenance doubling false 1 ∧
      j.binder.cache.peek? 4 = some 8 ∧ LastStored j.entries 4 8 ∧
      ∀ e ∈ j.entries, ∀ key data,
        .presented key data () () ∈ (e.result doubling false).events → data = some (2 * key) := by
  intro ms j
  have h : j.Provenance doubling false 1 := (journal_provenance rfl ms).2
  have hpeek : j.binder.cache.peek? 4 = some 8 := by decide +kernel
  refine ⟨rfl, h, hpeek, h.cached 4 8 hpeek, ?_⟩
  intro e he key data hmem
  have hf := h.faithful (fun key => .data (some (2 * key))) (fun _ _ _ => rfl) e he key data () () hmem
  exact (Outcome.data.inj hf).symm

end TabDeck.Binder
