import TabDeck.Proofs.Binder.Numbers
import TabDeck.Proofs.Binder.Step
/-!
The life of a load: at any moment of a run every load is at exactly one stage, not made, queued at the worker, queued
for delivery, or closed.
-/
namespace TabDeck.Binder

variable {L K D T P : Type}

inductive Stage (K D T P : Type) where
  | unmade
  | queued (r : Request K T P)
  | computed (d : Delivery K D T P)
  | closed

section Life

variable [DecidableEq K]

/-- The steps of a load up to a stage. -/
inductive Life (hooks : Hooks L K D T P) : List (Entry L K D T P) → Stage K D T P → Prop where
  | unmade : Life hooks [] .unmade
  | vetoed {l e r} (past : Life hooks l .unmade) (step : e.Vetoed hooks r) : Life hooks (l ++ [e]) .closed
  | hit {l e r data} (past : Life hooks l .unmade) (step : e.Hit hooks r data) : Life hooks (l ++ [e]) .closed
  | missed {l e r} (past : Life hooks l .unmade) (step : e.Missed hooks r) :
      Life hooks (l ++ [e]) (.queued (hooks.prepared r))
  | skipped {l e i r} (past : Life hooks l (.queued r)) (step : e.Skipped i r) : Life hooks (l ++ [e]) .closed
  | panicked {l e i r} (past : Life hooks l (.queued r)) (step : e.Panicked hooks i r) :
      Life hooks (l ++ [e]) .closed
  | computed {l e i r data} (past : Life hooks l (.queued r)) (step : e.Computed hooks i r data) :
      Life hooks (l ++ [e]) (.computed ⟨r, data⟩)
  | dropped {l e i d} (past : Life hooks l (.computed d)) (step : e.Dropped i d) : Life hooks (l ++ [e]) .closed
  | delivered {l e i d} (past : Life hooks l (.computed d)) (step : e.Delivered i d) :
      Life hooks (l ++ [e]) .closed

end Life

namespace Journal

section Consistent

variable [DecidableEq K]

structure At (hooks : Hooks L K D T P) (j : Journal L K D T P) (n : Nat) (s : Stage K D T P) : Prop where
  life : Life hooks (j.own n) s
  unmade : s = .unmade ↔ j.loads ≤ n
  request {r} : (n, r) ∈ j.requests ↔ s = .queued r
  delivery {d} : (n, d) ∈ j.deliveries ↔ s = .computed d

structure Consistent (hooks : Hooks L K D T P) (j : Journal L K D T P) : Prop where
  requests : Numbers j.requests j.binder.requests
  deliveries : Numbers j.deliveries j.binder.deliveries
  stage (n : Nat) : ∃ s, j.At hooks n s

variable {hooks : Hooks L K D T P} {survives : Bool} {j : Journal L K D T P} {m : Move L K T P} {n : Nat}
  {s : Stage K D T P}

theorem At.unique {s' : Stage K D T P} (h : j.At hooks n s) (h' : j.At hooks n s') : s = s' := by
  cases s with
  | unmade => exact (h'.unmade.mpr (h.unmade.mp rfl)).symm
  | queued r => exact (h'.request.mp (h.request.mpr rfl)).symm
  | computed d => exact (h'.delivery.mp (h.delivery.mpr rfl)).symm
  | closed =>
    cases s' with
    | unmade => exact h.unmade.mpr (h'.unmade.mp rfl)
    | queued r => exact h.request.mp (h'.request.mpr rfl)
    | computed d => exact h.delivery.mp (h'.delivery.mpr rfl)
    | closed => rfl

theorem At.close (hl : n < j.loads) (life : Life hooks (j.own n) .closed) (hr : ∀ r, (n, r) ∉ j.requests)
    (hd : ∀ d, (n, d) ∉ j.deliveries) : j.At hooks n .closed where
  life := life
  unmade := iff_of_false nofun (by omega)
  request {r} := iff_of_false (hr r) nofun
  delivery {d} := iff_of_false (hd d) nofun

theorem Consistent.unmade (h : j.Consistent hooks) : j.At hooks j.loads .unmade := by
  obtain ⟨s, hs⟩ := h.stage j.loads
  obtain rfl := hs.unmade.mpr (Nat.le_refl _)
  exact hs

theorem At.lt_loads (h : j.At hooks n s) (hs : s ≠ .unmade) : n < j.loads := by
  by_contra hn
  exact hs (h.unmade.mpr (by omega))

theorem Consistent.queued {i : Nat} {r : Request K T P} (h : j.Consistent hooks)
    (hq : j.requests[i]? = some (n, r)) :
    j.At hooks n (.queued r) := by
  obtain ⟨s, hs⟩ := h.stage n
  obtain rfl := hs.request.mp (List.mem_of_getElem? hq)
  exact hs

theorem Consistent.computed {i : Nat} {d : Delivery K D T P} (h : j.Consistent hooks)
    (hq : j.deliveries[i]? = some (n, d)) : j.At hooks n (.computed d) := by
  obtain ⟨s, hs⟩ := h.stage n
  obtain rfl := hs.delivery.mp (List.mem_of_getElem? hq)
  exact hs

variable [DecidableEq L]

theorem next_loads_le_iff (hn : j.number m ≠ some n) :
    (j.next hooks survives m).loads ≤ n ↔ j.loads ≤ n := by
  cases m with
  | call c =>
    cases c with
    | load key target params =>
      have hne : j.loads ≠ n := fun h => hn (congrArg some h)
      change j.loads + 1 ≤ n ↔ j.loads ≤ n
      omega
    | _ => rfl
  | _ => rfl

theorem At.next_of_ne (h : j.At hooks n s) (hn : j.number m ≠ some n) :
    (j.next hooks survives m).At hooks n s where
  life := by
    rw [own_next_of_ne hn]
    exact h.life
  unmade := by rw [next_loads_le_iff hn, h.unmade]
  request := by
    -- a served request belongs to the load of the step, which is not this one
    refine Iff.trans (mem_requeue hn ?_) h.request
    intro i k r hs hr
    cases m with
    | work i' =>
      obtain rfl := Option.some.inj hs
      exact congrArg (Option.map Prod.fst) hr
    | _ => cases hs
  delivery := by
    refine Iff.trans (mem_requeue hn ?_) h.delivery
    intro i k d hs hd
    cases m with
    | deliver i' =>
      obtain rfl := Option.some.inj hs
      exact congrArg (Option.map Prod.fst) hd
    | _ => cases hs

theorem Consistent.next_of (h : j.Consistent hooks)
    (hr : Numbers (j.next hooks survives m).requests (j.next hooks survives m).binder.requests)
    (hd : Numbers (j.next hooks survives m).deliveries (j.next hooks survives m).binder.deliveries)
    (hs : ∀ n, j.number m = some n → ∃ s, (j.next hooks survives m).At hooks n s) :
    (j.next hooks survives m).Consistent hooks where
  requests := hr
  deliveries := hd
  stage n := by
    by_cases hn : j.number m = some n
    · exact hs n hn
    · obtain ⟨s, hs⟩ := h.stage n
      exact ⟨s, hs.next_of_ne hn⟩

theorem next_requests_of_none (hn : j.number m = none) : (j.next hooks survives m).requests = j.requests := by
  refine requeue_none hn ?_
  intro i hi
  cases m with
  | work i' =>
    obtain rfl := Option.some.inj hi
    exact Option.map_eq_none_iff.mp hn
  | _ => cases hi

theorem next_deliveries_of_none (hn : j.number m = none) :
    (j.next hooks survives m).deliveries = j.deliveries := by
  refine requeue_none hn ?_
  intro i hi
  cases m with
  | deliver i' =>
    obtain rfl := Option.some.inj hi
    exact Option.map_eq_none_iff.mp hn
  | _ => cases hi

theorem Consistent.next_stray (h : j.Consistent hooks) (hn : j.number m = none)
    (hr : (j.next hooks survives m).binder.requests = j.binder.requests)
    (hd : (j.next hooks survives m).binder.deliveries = j.binder.deliveries) :
    (j.next hooks survives m).Consistent hooks := by
  refine h.next_of ?_ ?_ ?_
  · rw [next_requests_of_none hn, hr]
    exact h.requests
  · rw [next_deliveries_of_none hn, hd]
    exact h.deliveries
  · intro n hn'
    rw [hn] at hn'
    cases hn'

section Load

variable {r : Request K T P}

theorem Consistent.next_closed (h : j.Consistent hooks) (hm : m = .call (.load r.key r.target r.params))
    (hr : (j.next hooks survives m).binder.requests = j.binder.requests)
    (hd : (j.next hooks survives m).binder.deliveries = j.binder.deliveries)
    (life : Life hooks (j.own j.loads) .unmade → Life hooks (j.own j.loads ++ [j.entry m]) .closed) :
    (j.next hooks survives m).Consistent hooks := by
  subst hm
  have hr' : (j.next hooks survives (.call (.load r.key r.target r.params))).requests = j.requests :=
    requeue_keep rfl hr
  have hd' : (j.next hooks survives (.call (.load r.key r.target r.params))).deliveries = j.deliveries :=
    requeue_keep rfl hd
  refine h.next_of ?_ ?_ ?_
  · rw [hr', hr]
    exact h.requests
  · rw [hd', hd]
    exact h.deliveries
  · rintro n ⟨⟩
    refine ⟨.closed, At.close (Nat.lt_succ_self _) ?_ ?_ ?_⟩
    · rw [own_next_of_eq rfl]
      exact life h.unmade.life
    · intro r hmem
      rw [hr'] at hmem
      cases h.unmade.request.mp hmem
    · intro d hmem
      rw [hd'] at hmem
      cases h.unmade.delivery.mp hmem

theorem Consistent.next_missed (h : j.Consistent hooks) (hm : (j.entry m).Missed hooks r)
    (hr : (j.next hooks survives m).binder.requests = j.binder.requests ++ [hooks.prepared r])
    (hd : (j.next hooks survives m).binder.deliveries = j.binder.deliveries) :
    (j.next hooks survives m).Consistent hooks := by
  obtain rfl : m = .call (.load r.key r.target r.params) := hm.loads
  have hr' : (j.next hooks survives (.call (.load r.key r.target r.params))).requests =
      j.requests ++ [(j.loads, hooks.prepared r)] := requeue_push rfl rfl hr
  have hd' : (j.next hooks survives (.call (.load r.key r.target r.params))).deliveries = j.deliveries :=
    requeue_keep rfl hd
  have hnew (r' : Request K T P) : (j.loads, r') ∉ j.requests := by
    intro hmem
    cases h.unmade.request.mp hmem
  refine h.next_of ?_ ?_ ?_
  · rw [hr', hr]
    exact h.requests.push hnew
  · rw [hd', hd]
    exact h.deliveries
  · rintro n ⟨⟩
    refine ⟨.queued (hooks.prepared r), ?_, ?_, ?_, ?_⟩
    · rw [own_next_of_eq rfl]
      exact .missed h.unmade.life hm
    · exact iff_of_false nofun (Nat.not_le_of_lt (Nat.lt_succ_self _))
    · intro r'
      rw [hr', List.mem_append, or_iff_right (hnew r'), List.mem_singleton]
      constructor
      · rintro ⟨⟩
        rfl
      · rintro ⟨⟩
        rfl
    · intro d
      rw [hd']
      exact iff_of_false (fun hmem => nomatch h.unmade.delivery.mp hmem) nofun

end Load

section Work

variable {i k : Nat} {r : Request K T P}

theorem Consistent.next_ended (h : j.Consistent hooks) (hm : (j.entry m).Works i r)
    (hr : (j.next hooks survives m).binder.requests = j.binder.requests.eraseIdx i)
    (hd : (j.next hooks survives m).binder.deliveries = j.binder.deliveries)
    (life : ∀ l, Life hooks l (.queued r) → Life hooks (l ++ [j.entry m]) .closed) :
    (j.next hooks survives m).Consistent hooks := by
  obtain rfl : m = .work i := hm.move
  have hr' : (j.next hooks survives (.work i)).requests = j.requests.eraseIdx i := requeue_serve rfl hr
  have hd' : (j.next hooks survives (.work i)).deliveries = j.deliveries := requeue_keep rfl hd
  obtain ⟨k, hq⟩ := h.requests.exists_number hm.request
  have hk : j.number (.work i) = some k := congrArg (Option.map Prod.fst) hq
  have hs := h.queued hq
  have hlt : k < j.loads := hs.lt_loads nofun
  refine h.next_of ?_ ?_ ?_
  · rw [hr', hr]
    exact h.requests.serve i
  · rw [hd', hd]
    exact h.deliveries
  · intro n hn
    obtain rfl := Option.some.inj (hk.symm.trans hn)
    refine ⟨.closed, At.close hlt ?_ ?_ ?_⟩
    · rw [own_next_of_eq hk]
      exact life _ hs.life
    · intro r' hmem
      rw [hr'] at hmem
      exact h.requests.notMem_serve hq hmem
    · intro d hmem
      rw [hd'] at hmem
      cases hs.delivery.mp hmem

theorem Consistent.next_computed (h : j.Consistent hooks) {data : Option D}
    (hm : (j.entry m).Computed hooks i r data)
    (hr : (j.next hooks survives m).binder.requests = j.binder.requests.eraseIdx i)
    (hd : (j.next hooks survives m).binder.deliveries = j.binder.deliveries ++ [⟨r, data⟩]) :
    (j.next hooks survives m).Consistent hooks := by
  obtain rfl : m = .work i := hm.works.move
  obtain ⟨k, hq⟩ := h.requests.exists_number hm.works.request
  have hk : j.number (.work i) = some k := congrArg (Option.map Prod.fst) hq
  have hs := h.queued hq
  have hlt : k < j.loads := hs.lt_loads nofun
  have hr' : (j.next hooks survives (.work i)).requests = j.requests.eraseIdx i := requeue_serve rfl hr
  have hd' : (j.next hooks survives (.work i)).deliveries = j.deliveries ++ [(k, ⟨r, data⟩)] :=
    requeue_push rfl hk hd
  have hnew (d : Delivery K D T P) : (k, d) ∉ j.deliveries := by
    intro hmem
    cases hs.delivery.mp hmem
  refine h.next_of ?_ ?_ ?_
  · rw [hr', hr]
    exact h.requests.serve i
  · rw [hd', hd]
    exact h.deliveries.push hnew
  · intro n hn
    obtain rfl := Option.some.inj (hk.symm.trans hn)
    refine ⟨.computed ⟨r, data⟩, ?_, ?_, ?_, ?_⟩
    · rw [own_next_of_eq hk]
      exact .computed hs.life hm
    · exact iff_of_false nofun (Nat.not_le_of_lt hlt)
    · intro r'
      rw [hr']
      exact iff_of_false (h.requests.notMem_serve hq) nofun
    · intro d
      rw [hd', List.mem_append, or_iff_right (hnew d), List.mem_singleton]
      constructor
      · rintro ⟨⟩
        rfl
      · rintro ⟨⟩
        rfl

end Work

theorem Consistent.next_delivered (h : j.Consistent hooks) {i : Nat} {d : Delivery K D T P}
    (hm : (j.entry m).Delivers i d) (hr : (j.next hooks survives m).binder.requests = j.binder.requests)
    (hd : (j.next hooks survives m).binder.deliveries = j.binder.deliveries.eraseIdx i)
    (life : ∀ l, Life hooks l (.computed d) → Life hooks (l ++ [j.entry m]) .closed) :
    (j.next hooks survives m).Consistent hooks := by
  obtain rfl : m = .deliver i := hm.move
  have hr' : (j.next hooks survives (.deliver i)).requests = j.requests := requeue_keep rfl hr
  have hd' : (j.next hooks survives (.deliver i)).deliveries = j.deliveries.eraseIdx i := requeue_serve rfl hd
  obtain ⟨k, hq⟩ := h.deliveries.exists_number hm.delivery
  have hk : j.number (.deliver i) = some k := congrArg (Option.map Prod.fst) hq
  have hs := h.computed hq
  have hlt : k < j.loads := hs.lt_loads nofun
  refine h.next_of ?_ ?_ ?_
  · rw [hr', hr]
    exact h.requests
  · rw [hd', hd]
    exact h.deliveries.serve i
  · intro n hn
    obtain rfl := Option.some.inj (hk.symm.trans hn)
    refine ⟨.closed, At.close hlt ?_ ?_ ?_⟩
    · rw [own_next_of_eq hk]
      exact life _ hs.life
    · intro r hmem
      rw [hr'] at hmem
      cases hs.request.mp hmem
    · intro d' hmem
      rw [hd'] at hmem
      exact h.deliveries.notMem_serve hq hmem

omit [DecidableEq L] in
theorem Consistent.number_of_idle (h : j.Consistent hooks) (hi : (j.entry m).Idle) : j.number m = none := by
  rcases hi with ⟨i, hm, hr⟩ | ⟨i, hm, hd⟩
  · obtain rfl : m = .work i := hm
    exact h.requests.number_eq_none hr
  · obtain rfl : m = .deliver i := hm
    exact h.deliveries.number_eq_none hd

theorem Consistent.next (h : j.Consistent hooks) (hq : j.binder.reactions = []) :
    (j.next hooks survives m).Consistent hooks := by
  -- each kind moves one load by one stage, or none
  cases (j.entry m).kind hooks with
  | vetoed r hk =>
    have hres : (j.entry m).result hooks survives = _ := hk.result hq
    exact h.next_closed hk.loads (congrArg (·.binder.requests) hres) (congrArg (·.binder.deliveries) hres)
      fun past => .vetoed past hk
  | hit r data hk =>
    have hres : (j.entry m).result hooks survives = _ := hk.result hq
    exact h.next_closed hk.loads (congrArg (·.binder.requests) hres) (congrArg (·.binder.deliveries) hres)
      fun past => .hit past hk
  | missed r hk =>
    have hres : (j.entry m).result hooks survives = _ := hk.result hq
    exact h.next_missed hk (congrArg (·.binder.requests) hres) (congrArg (·.binder.deliveries) hres)
  | skipped i r hk =>
    have hres : (j.entry m).result hooks survives = _ := hk.result
    exact h.next_ended hk.works (congrArg (·.binder.requests) hres) (congrArg (·.binder.deliveries) hres)
      fun _ past => .skipped past hk
  | panicked i r hk =>
    have hres : (j.entry m).result hooks survives = _ := hk.result
    exact h.next_ended hk.works (congrArg (·.binder.requests) hres) (congrArg (·.binder.deliveries) hres)
      fun _ past => .panicked past hk
  | computed i r data hk =>
    have hres : (j.entry m).result hooks survives = _ := hk.result
    exact h.next_computed hk (congrArg (·.binder.requests) hres) (congrArg (·.binder.deliveries) hres)
  | dropped i d hk =>
    have hres : (j.entry m).result hooks survives = _ := hk.result
    exact h.next_delivered hk.delivers (congrArg (·.binder.requests) hres) (congrArg (·.binder.deliveries) hres)
      fun _ past => .dropped past hk
  | delivered i d hk =>
    have hres : (j.entry m).result hooks survives = _ := hk.result hq
    exact h.next_delivered hk.delivers (congrArg (·.binder.requests) hres) (congrArg (·.binder.deliveries) hres)
      fun _ past => .delivered past hk
  | canceled hk =>
    obtain rfl : m = .call .cancel := hk
    have hres : (j.entry (.call .cancel)).result hooks survives = _ := move_cancel hq
    exact h.next_stray rfl (congrArg (·.binder.requests) hres) (congrArg (·.binder.deliveries) hres)
  | cleared hk =>
    obtain rfl : m = .call .clearCache := hk
    have hres : (j.entry (.call .clearCache)).result hooks survives = _ := move_clearCache
    exact h.next_stray rfl (congrArg (·.binder.requests) hres) (congrArg (·.binder.deliveries) hres)
  | listening listener hk =>
    obtain rfl : m = .call (.setListener listener) := hk
    have hres : (j.entry (.call (.setListener listener))).result hooks survives = _ := move_setListener listener
    exact h.next_stray rfl (congrArg (·.binder.requests) hres) (congrArg (·.binder.deliveries) hres)
  | idle hk =>
    have hres : (j.entry m).result hooks survives = _ := hk.result
    exact h.next_stray (h.number_of_idle hk) (congrArg (·.binder.requests) hres) (congrArg (·.binder.deliveries) hres)

end Consistent

end Journal

variable [DecidableEq L] [DecidableEq K] {hooks : Hooks L K D T P} {survives : Bool} {cache : Cache K D}

theorem journal_consistent (ms : List (Move L K T P)) : (journal hooks survives cache ms).Consistent hooks := by
  induction ms using List.reverseRecOn with
  | nil =>
    refine ⟨.nil, .nil, fun n => ⟨.unmade, .unmade, ?_, ?_, ?_⟩⟩
    · exact iff_of_true rfl (Nat.zero_le n)
    · exact iff_of_false List.not_mem_nil nofun
    · exact iff_of_false List.not_mem_nil nofun
  | append_singleton ms m ih =>
    rw [journal_concat]
    exact ih.next (journal_quiet ms)

section Loads

variable {ms : List (Move L K T P)} {e : Entry L K D T P} {i : Nat} {r : Request K T P} {d : Delivery K D T P}

theorem load_eq_number (he : e ∈ (journal hooks survives cache ms).entries) :
    e.load = (journal hooks survives cache (ms.take e.time)).number e.move :=
  congrArg Entry.load (entry_of_mem he).2

theorem before_eq_binder (he : e ∈ (journal hooks survives cache ms).entries) :
    e.before = (journal hooks survives cache (ms.take e.time)).binder :=
  congrArg Entry.before (entry_of_mem he).2

theorem load_of_loads (he : e ∈ (journal hooks survives cache ms).entries) (h : e.Loads r) :
    ∃ n, e.load = some n := by
  rw [load_eq_number he, h]
  exact ⟨_, rfl⟩

theorem load_of_delivers (he : e ∈ (journal hooks survives cache ms).entries) (h : e.Delivers i d) :
    ∃ n, e.load = some n := by
  have hd := h.delivery
  rw [before_eq_binder he] at hd
  obtain ⟨n, hn⟩ := (journal_consistent (ms.take e.time)).deliveries.exists_number hd
  rw [load_eq_number he, h.move]
  exact ⟨n, congrArg (Option.map Prod.fst) hn⟩

theorem load_of_works (he : e ∈ (journal hooks survives cache ms).entries) (h : e.Works i r) :
    ∃ n, e.load = some n := by
  have hr := h.request
  rw [before_eq_binder he] at hr
  obtain ⟨n, hn⟩ := (journal_consistent (ms.take e.time)).requests.exists_number hr
  rw [load_eq_number he, h.move]
  exact ⟨n, congrArg (Option.map Prod.fst) hn⟩

end Loads

end TabDeck.Binder
