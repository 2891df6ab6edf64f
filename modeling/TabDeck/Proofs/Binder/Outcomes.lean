import TabDeck.Proofs.Binder.Calls

namespace TabDeck.Binder

variable {L K D T P : Type} [DecidableEq L] [DecidableEq K]

def Entry.QueuesNothing (hooks : Hooks L K D T P) (survives : Bool) (e : Entry L K D T P) : Prop :=
  (e.result hooks survives).binder.requests = e.before.requests ∧
    (e.result hooks survives).binder.deliveries = e.before.deliveries

structure Journal.Outcomes (hooks : Hooks L K D T P) (survives : Bool) (j : Journal L K D T P) : Prop where
  stray (e : Entry L K D T P) : e ∈ j.entries → e.load = none → e.shown hooks survives = []
  once (n : Nat) : shownOf hooks survives (j.own n) = [] ∨
    ∃ e ∈ j.own n, e.HasOutcome hooks survives ∧ shownOf hooks survives (j.own n) = e.shown hooks survives
  vetoed (e : Entry L K D T P) (r : Request K T P) : e ∈ j.entries → e.Vetoed hooks r →
    e.calls hooks survives = [] ∧ e.QueuesNothing hooks survives ∧ ∃ n, j.own n = [e]
  hit (e : Entry L K D T P) (r : Request K T P) (data : D) : e ∈ j.entries → e.Hit hooks r data →
    e.calls hooks survives = outcome hooks e.before.listener r (some data) ∧ e.QueuesNothing hooks survives ∧
      ∃ n, j.own n = [e]
  missed (e : Entry L K D T P) (r : Request K T P) : e ∈ j.entries → e.Missed hooks r →
    e.calls hooks survives = [.prepared r.key (hooks.prepared r).target r.params] ∧
      ∃ n rest, j.own n = e :: rest ∧ (∀ e' ∈ rest, ∀ r', ¬ e'.Loads r') ∧
        (callsOf hooks survives rest).filter Event.isPrepared = [] ∧
        ((callsOf hooks survives rest).filter Event.isComputed).length ≤ 1
  settled (n : Nat) (e : Entry L K D T P) (r : Request K T P) : j.binder.requests = [] → j.binder.deliveries = [] →
    e ∈ j.own n → e.Missed hooks r →
      (∃ w ∈ j.own n, ∃ i, w.Works i (hooks.prepared r)) ∧
      (∀ w ∈ j.own n, ∀ i data, w.Computed hooks i (hooks.prepared r) data →
        ∃ u ∈ j.own n, ∃ k, u.Delivers k ⟨hooks.prepared r, data⟩) ∧
      (Granted hooks Entry.Active (j.own n) (hooks.prepared r) → ∃ u ∈ j.own n, ∃ data,
        shownOf hooks survives (j.own n) = outcome hooks u.before.listener (hooks.prepared r) data) ∧
      (¬ Granted hooks Entry.Active (j.own n) (hooks.prepared r) → shownOf hooks survives (j.own n) = [])
  panicked (e : Entry L K D T P) (i : Nat) (r : Request K T P) : e.Panicked hooks i r →
    (e.result hooks survives).binder =
      { e.before with requests := e.before.requests.eraseIdx i, computations := e.before.computations + 1 }

variable {hooks : Hooks L K D T P} {survives : Bool} {cache : Cache K D} {ms : List (Move L K T P)}
  {e : Entry L K D T P} {l : List (Entry L K D T P)} {s : Stage K D T P} {r : Request K T P}

theorem shownOf_delivered {w u : Entry L K D T P} {i k : Nat} {data : Option D} (hm : e.Missed hooks r)
    (work : w.Computed hooks i (hooks.prepared r) data) (delivery : u.Delivered k ⟨hooks.prepared r, data⟩)
    (hq : ∀ e' ∈ [e, w, u], e'.before.reactions = []) :
    shownOf hooks survives [e, w, u] = outcome hooks u.before.listener (hooks.prepared r) data := by
  rw [shownOf_cons, shownOf_cons, shownOf_cons, hm.shown (hq e (by simp)), work.shown,
    delivery.shown (hq u (by simp))]
  exact List.append_nil _

theorem Miss.shown (h : Miss hooks e r l s) (hm : e.Missed hooks r) (hq : ∀ e' ∈ l, e'.before.reactions = []) :
    (Granted hooks Entry.Active l (hooks.prepared r) → ∃ u ∈ l, ∃ data,
      shownOf hooks survives l = outcome hooks u.before.listener (hooks.prepared r) data) ∧
    (¬ Granted hooks Entry.Active l (hooks.prepared r) → shownOf hooks survives l = []) := by
  constructor
  · intro hg
    obtain ⟨w, u, i, k, data, rfl, work, delivery⟩ := (h.granted_iff hm).mp hg
    exact ⟨u, by simp, data, shownOf_delivered hm work delivery hq⟩
  · intro hg
    have he : e.shown hooks survives = [] := by
      refine hm.shown (hq e ?_)
      cases h <;> exact List.mem_cons_self
    cases h with
    | queued => rw [shownOf_cons, he]; rfl
    | skipped work => rw [shownOf_cons, shownOf_cons, he, work.shown]; rfl
    | panicked work => rw [shownOf_cons, shownOf_cons, he, work.shown]; rfl
    | computed work => rw [shownOf_cons, shownOf_cons, he, work.shown]; rfl
    | dropped work delivery => rw [shownOf_cons, shownOf_cons, shownOf_cons, he, work.shown, delivery.shown]; rfl
    | delivered work delivery =>
      exact absurd ((Miss.delivered work delivery).granted_iff hm |>.mpr ⟨_, _, _, _, _, rfl, work, delivery⟩) hg

theorem Miss.calls {rest : List (Entry L K D T P)} (h : Miss hooks e r (e :: rest) s)
    (hq : ∀ e' ∈ rest, e'.before.reactions = []) :
    (callsOf hooks survives rest).filter Event.isPrepared = [] ∧
      ((callsOf hooks survives rest).filter Event.isComputed).length ≤ 1 := by
  cases h with
  | queued => exact ⟨rfl, Nat.zero_le 1⟩
  | skipped work =>
    rw [callsOf_cons, work.calls]
    exact ⟨rfl, Nat.zero_le 1⟩
  | panicked work =>
    rw [callsOf_cons, work.calls]
    exact ⟨rfl, Nat.le_refl 1⟩
  | computed work =>
    rw [callsOf_cons, work.calls]
    exact ⟨rfl, Nat.le_refl 1⟩
  | dropped work delivery =>
    rw [callsOf_cons, callsOf_cons, work.calls, delivery.calls]
    exact ⟨rfl, Nat.le_refl 1⟩
  | @delivered w i data u k work delivery =>
    rw [callsOf_cons, callsOf_cons, work.calls, delivery.calls (hq u (by simp))]
    constructor
    · rw [List.filter_append, List.filter_append, filter_isPrepared_outcome]
      rfl
    · rw [List.filter_append, List.filter_append, filter_isComputed_outcome]
      exact Nat.le_refl 1

theorem Entry.Vetoed.queuesNothing (h : e.Vetoed hooks r) (hq : e.before.reactions = []) :
    e.QueuesNothing hooks survives := by
  rw [QueuesNothing, h.result hq]
  exact ⟨rfl, rfl⟩

theorem Entry.Hit.queuesNothing {data : D} (h : e.Hit hooks r data) (hq : e.before.reactions = []) :
    e.QueuesNothing hooks survives := by
  rw [QueuesNothing, h.result hq]
  exact ⟨rfl, rfl⟩

section Journals

variable {n : Nat}

theorem shown_of_load_eq_none (he : e ∈ (journal hooks survives cache ms).entries) (hn : e.load = none) :
    e.shown hooks survives = [] := by
  refine Entry.shown_eq_nil (entry_quiet he) ?_ ?_
  · intro r data h
    obtain ⟨n, hl⟩ := load_of_loads he h.loads
    exact nomatch hn.symm.trans hl
  · intro i d h
    obtain ⟨n, hl⟩ := load_of_delivers he h.delivers
    exact nomatch hn.symm.trans hl

theorem own_of_not_missed (he : e ∈ (journal hooks survives cache ms).entries) (hl : e.Loads r)
    (hm : ¬ e.Missed hooks r) : ∃ n, (journal hooks survives cache ms).own n = [e] := by
  obtain ⟨n, hn⟩ := load_of_loads he hl
  obtain ⟨s, hs⟩ := (journal_consistent ms).stage n
  exact ⟨n, (hs.life.closed_at_once (Journal.mem_own.mpr ⟨he, hn⟩) hl hm).1⟩

theorem miss_of_mem_own (he : e ∈ (journal hooks survives cache ms).own n) (hm : e.Missed hooks r) :
    ∃ s, Miss hooks e r ((journal hooks survives cache ms).own n) s ∧
      (journal hooks survives cache ms).At hooks n s := by
  obtain ⟨s, hs⟩ := (journal_consistent ms).stage n
  exact ⟨s, hs.life.miss he hm, hs⟩

omit [DecidableEq L] in
theorem Miss.closed_of_settled {j : Journal L K D T P} (h : Miss hooks e r l s) (hj : j.Consistent hooks)
    (hs : j.At hooks n s) (hr : j.binder.requests = []) (hd : j.binder.deliveries = []) : s = .closed := by
  have hr' : j.requests = [] := List.map_eq_nil_iff.mp (hj.requests.items.trans hr)
  have hd' : j.deliveries = [] := List.map_eq_nil_iff.mp (hj.deliveries.items.trans hd)
  cases h with
  | queued =>
    have hmem := hs.request.mpr rfl
    rw [hr'] at hmem
    cases hmem
  | computed work =>
    have hmem := hs.delivery.mpr rfl
    rw [hd'] at hmem
    cases hmem
  | _ => rfl

/-- Nothing of a load gets lost: its request waits or was taken by the worker, and its data waits or was delivered. -/
structure Journal.Pursued (hooks : Hooks L K D T P) (j : Journal L K D T P) (n : Nat) : Prop where
  missed (e : Entry L K D T P) (r : Request K T P) : e ∈ j.own n → e.Missed hooks r →
    hooks.prepared r ∈ j.binder.requests ∨ ∃ w ∈ j.own n, ∃ i, w.Works i (hooks.prepared r)
  computed (w : Entry L K D T P) (i : Nat) (r : Request K T P) (data : Option D) : w ∈ j.own n →
    w.Computed hooks i r data → ⟨r, data⟩ ∈ j.binder.deliveries ∨ ∃ u ∈ j.own n, ∃ k, u.Delivers k ⟨r, data⟩

theorem missed_of_mem_own {w : Entry L K D T P} (hw : w ∈ (journal hooks survives cache ms).own n)
    (hl : ∀ q, ¬ w.Loads q) : ∃ e ∈ (journal hooks survives cache ms).own n, ∃ r, e.Missed hooks r := by
  obtain ⟨s, hs⟩ := (journal_consistent ms).stage n
  exact hs.life.missed_of_mem hw hl

theorem journal_pursued (ms : List (Move L K T P)) (n : Nat) :
    (journal hooks survives cache ms).Pursued hooks n := by
  have hj : (journal hooks survives cache ms).Consistent hooks := journal_consistent ms
  constructor
  · intro e r he hm
    obtain ⟨s, hmiss, hs⟩ := miss_of_mem_own he hm
    by_cases hqueued : s = .queued (hooks.prepared r)
    · rw [← hj.requests.items]
      exact .inl (List.mem_map.mpr ⟨_, hs.request.mpr hqueued, rfl⟩)
    · exact .inr (hmiss.exists_works hqueued)
  · intro w i r data hw hc
    obtain ⟨e, he, q, hm⟩ := missed_of_mem_own hw fun q hl => hl.not_works hc.works
    obtain ⟨s, hmiss, hs⟩ := miss_of_mem_own he hm
    rcases hmiss.of_computed hm hw hc with hcomputed | hdelivers
    · rw [← hj.deliveries.items]
      exact .inl (List.mem_map.mpr ⟨_, hs.delivery.mpr hcomputed, rfl⟩)
    · exact .inr hdelivers

end Journals

theorem journal_outcomes (ms : List (Move L K T P)) :
    (journal hooks survives cache ms).Outcomes hooks survives := by
  refine ⟨?_, ?_, ?_, ?_, ?_, ?_, ?_⟩
  · intro e
    exact shown_of_load_eq_none
  · intro n
    obtain ⟨s, hs⟩ := (journal_consistent ms).stage n
    exact hs.life.once own_quiet
  · intro e r he hv
    have hq := entry_quiet he
    exact ⟨hv.calls hq, hv.queuesNothing hq, own_of_not_missed he hv.loads fun hm => hm.not_vetoed hv⟩
  · intro e r data he hh
    have hq := entry_quiet he
    exact ⟨hh.calls hq, hh.queuesNothing hq, own_of_not_missed he hh.loads fun hm => hm.not_hit hh⟩
  · intro e r he hm
    obtain ⟨n, hn⟩ := load_of_loads he hm.loads
    obtain ⟨s, hmiss, -⟩ := miss_of_mem_own (Journal.mem_own.mpr ⟨he, hn⟩) hm
    obtain ⟨rest, hrest, hloads⟩ := hmiss.rest
    have hq : ∀ e ∈ (journal hooks survives cache ms).own n, e.before.reactions = [] := own_quiet
    rw [hrest] at hmiss hq
    exact ⟨hm.calls (entry_quiet he), n, rest, hrest, hloads,
      hmiss.calls fun e' he' => hq e' (List.mem_cons_of_mem e he')⟩
  · intro n e r hr hd he hm
    obtain ⟨s, hmiss, hs⟩ := miss_of_mem_own he hm
    obtain rfl := hmiss.closed_of_settled (journal_consistent ms) hs hr hd
    refine ⟨hmiss.exists_works nofun, ?_, hmiss.shown hm own_quiet⟩
    intro w hw i data hc
    exact (hmiss.of_computed hm hw hc).resolve_left nofun
  · intro e i r hp
    rw [hp.result]

end TabDeck.Binder
