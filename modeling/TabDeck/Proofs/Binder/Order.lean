import TabDeck.Proofs.Binder.Lines
import TabDeck.Proofs.Binder.Operations
import TabDeck.Proofs.Binder.Storage
/-!
The order in which misses are computed and shown when queues are served from the front.
-/
namespace TabDeck.Binder

variable {L K D T P : Type} [DecidableEq L] [DecidableEq K] {hooks : Hooks L K D T P} {survives : Bool}
  {cache : Cache K D} {ms : List (Move L K T P)}

section Tellers

def Entry.teller (hooks : Hooks L K D T P) (kind : Event L K D T P → Bool) (e : Entry L K D T P) : Option Nat :=
  if (e.result hooks false).events.filter kind = [] then none else e.load

def tellersOf (hooks : Hooks L K D T P) (kind : Event L K D T P → Bool) (l : List (Entry L K D T P)) : List Nat :=
  l.filterMap (Entry.teller hooks kind)

variable {kind : Event L K D T P → Bool} {l : List (Entry L K D T P)} {e : Entry L K D T P} {n : Nat}

theorem teller_eq_some :
    e.teller hooks kind = some n ↔ (e.result hooks false).events.filter kind ≠ [] ∧ e.load = some n :=
  Option.ite_none_left_eq_some

theorem mem_tellersOf {j : Journal L K D T P} :
    n ∈ tellersOf hooks kind j.entries ↔ ∃ e ∈ j.own n, (e.result hooks false).events.filter kind ≠ [] := by
  constructor
  · intro h
    obtain ⟨e, he, hteller⟩ := List.mem_filterMap.mp h
    obtain ⟨htell, hload⟩ := teller_eq_some.mp hteller
    exact ⟨e, Journal.mem_own.mpr ⟨he, hload⟩, htell⟩
  · rintro ⟨e, he, htell⟩
    obtain ⟨he, hload⟩ := Journal.mem_own.mp he
    exact List.mem_filterMap.mpr ⟨e, he, teller_eq_some.mpr ⟨htell, hload⟩⟩

theorem forall₂_tellersOf {R : Nat → Event L K D T P → Prop}
    (h : ∀ e ∈ l, (e.result hooks false).events.filter kind ≠ [] → ∃ n event,
      e.load = some n ∧ (e.result hooks false).events.filter kind = [event] ∧ R n event) :
    List.Forall₂ R (tellersOf hooks kind l) ((l.flatMap fun e => (e.result hooks false).events).filter kind) := by
  induction l with
  | nil => exact .nil
  | cons e l ih =>
    have hl := ih fun e' he' => h e' (List.mem_cons_of_mem e he')
    rw [List.flatMap_cons, List.filter_append, tellersOf]
    by_cases hnone : (e.result hooks false).events.filter kind = []
    · have hteller : e.teller hooks kind = none := if_pos hnone
      rw [hnone, List.filterMap_cons_none hteller]
      exact hl
    · obtain ⟨n, event, hload, hone, hR⟩ := h e List.mem_cons_self hnone
      rw [hone, List.filterMap_cons_some (teller_eq_some.mpr ⟨hnone, hload⟩)]
      exact .cons hR hl

theorem pairwise_tellersOf {j : Journal L K D T P} {R : Nat → Nat → Prop} (hj : j.entries.Pairwise (·.time < ·.time))
    (h : ∀ m n, ∀ e ∈ j.own m, ∀ e' ∈ j.own n, (e.result hooks false).events.filter kind ≠ [] →
      (e'.result hooks false).events.filter kind ≠ [] → e.time < e'.time → R m n) :
    (tellersOf hooks kind j.entries).Pairwise R := by
  refine List.pairwise_filterMap.mpr (hj.imp_of_mem ?_)
  intro e e' he he' hlt m hm n hn
  obtain ⟨htell, hload⟩ := teller_eq_some.mp hm
  obtain ⟨htell', hload'⟩ := teller_eq_some.mp hn
  exact h m n e (Journal.mem_own.mpr ⟨he, hload⟩) e' (Journal.mem_own.mpr ⟨he', hload'⟩) htell htell' hlt

theorem filter_events (hk : ∀ event, kind event = true → event.isHook = true) :
    (e.result hooks false).events.filter kind = (e.calls hooks false).filter kind := by
  rw [Entry.calls, List.filter_filter]
  refine List.filter_congr ?_
  intro event _
  cases hkind : kind event with
  | true => rw [hk event hkind]; rfl
  | false => rfl

theorem computed_eq (e : Entry L K D T P) :
    (e.result hooks false).events.filter Event.isComputed = (e.calls hooks false).filter Event.isComputed := by
  refine filter_events ?_
  intro event h
  cases event with
  | computed key params => rfl
  | _ => cases h

theorem presented_eq (e : Entry L K D T P) :
    (e.result hooks false).events.filter Event.isPresented = (e.shown hooks false).filter Event.isPresented := by
  rw [Entry.shown, List.filter_filter, filter_events]
  · refine List.filter_congr ?_
    intro event _
    cases event <;> rfl
  · intro event h
    cases event with
    | presented key data target params => rfl
    | _ => cases h

theorem computed_of_works {i : Nat} {r : Request K T P} (hw : e.Works i r) (ha : e.Active) :
    (e.result hooks false).events.filter Event.isComputed = [.computed r.key r.params] := by
  rw [computed_eq]
  cases hc : hooks.compute e.before.computations r.key r.params with
  | panic =>
    have hp : e.Panicked hooks i r := ⟨hw, ha, hc⟩
    rw [hp.calls]
    rfl
  | data data =>
    have hd : e.Computed hooks i r data := ⟨hw, ha, hc⟩
    rw [hd.calls]
    rfl

theorem works_of_computed (hq : e.before.reactions = [])
    (h : (e.result hooks false).events.filter Event.isComputed ≠ []) : ∃ i r, e.Works i r ∧ e.Active := by
  rw [computed_eq] at h
  cases e.kind hooks with
  | vetoed r hk => exact absurd (by rw [hk.calls hq]; rfl) h
  | hit r data hk => exact absurd (by rw [hk.calls hq, filter_isComputed_outcome]) h
  | missed r hk => exact absurd (by rw [hk.calls hq]; rfl) h
  | skipped i r hk => exact absurd (by rw [hk.calls]; rfl) h
  | panicked i r hk => exact ⟨i, r, hk.works, hk.active⟩
  | computed i r data hk => exact ⟨i, r, hk.works, hk.active⟩
  | dropped i d hk => exact absurd (by rw [hk.calls]; rfl) h
  | delivered i d hk => exact absurd (by rw [hk.calls hq, filter_isComputed_outcome]) h
  | canceled hk => exact absurd (by rw [Entry.calls_canceled hk hq]; rfl) h
  | cleared hk => exact absurd (by rw [Entry.calls_cleared hk]; rfl) h
  | listening listener hk => exact absurd (by rw [Entry.calls_listening hk]; rfl) h
  | idle hk => exact absurd (by rw [hk.calls]; rfl) h

theorem presented_of_delivered {i : Nat} {d : Delivery K D T P} (h : e.Delivered i d)
    (hq : e.before.reactions = []) : (e.result hooks false).events.filter Event.isPresented =
      [.presented d.request.key d.data d.request.target d.request.params] := by
  rw [presented_eq, h.shown hq, filter_isPresented_outcome]

theorem presented_of_hit {r : Request K T P} {v : D} (h : e.Hit hooks r v) (hq : e.before.reactions = []) :
    (e.result hooks false).events.filter Event.isPresented = [.presented r.key (some v) r.target r.params] := by
  rw [presented_eq, h.shown hq, filter_isPresented_outcome]

theorem hit_or_delivered_of_presented (hq : e.before.reactions = [])
    (h : (e.result hooks false).events.filter Event.isPresented ≠ []) :
    (∃ r v, e.Hit hooks r v) ∨ ∃ i d, e.Delivered i d := by
  have hshown : e.shown hooks false ≠ [] := by
    intro hnone
    rw [presented_eq, hnone] at h
    exact h rfl
  exact Entry.hit_or_delivered hq hshown

end Tellers

section InOrder

variable {j : Journal L K D T P} {m n : Nat}

def Journal.IsMiss (hooks : Hooks L K D T P) (j : Journal L K D T P) (n : Nat) : Prop :=
  ∃ a ∈ j.own n, ∃ r, a.Missed hooks r

def Journal.Computes (hooks : Hooks L K D T P) (j : Journal L K D T P) (n : Nat) (event : Event L K D T P) : Prop :=
  ∃ a ∈ j.own n, ∃ r, a.Missed hooks r ∧ event = .computed r.key r.params

/-- The event shows the data of a load: of a hit what is cached, and of a miss what was computed for it. -/
inductive Journal.Presents (hooks : Hooks L K D T P) (j : Journal L K D T P) (n : Nat) : Event L K D T P → Prop where
  | hit {a r v} (load : a ∈ j.own n) (step : a.Hit hooks r v) :
      Presents hooks j n (.presented r.key (some v) r.target r.params)
  | missed {a w r i data} (load : a ∈ j.own n) (step : a.Missed hooks r) (work : w ∈ j.own n)
      (computed : w.Computed hooks i (hooks.prepared r) data) :
      Presents hooks j n (.presented r.key data (hooks.prepared r).target r.params)

structure Journal.InOrder (hooks : Hooks L K D T P) (j : Journal L K D T P) : Prop where
  loaded {m n : Nat} {r q : Request K T P} {a b : Entry L K D T P} : a ∈ j.own m → b ∈ j.own n → a.Loads r →
    b.Loads q → (a.time < b.time ↔ m < n)
  pursued (n : Nat) : j.Pursued hooks n
  computed : ∃ ns, Increasing ns ∧ (∀ n, n ∈ ns ↔ ∃ w ∈ j.own n, ∃ i r, w.Works i r ∧ w.Active) ∧
    List.Forall₂ (j.Computes hooks) ns ((j.events hooks).filter Event.isComputed)
  presented : ∃ ns : List Nat, ns.Pairwise (fun m n => j.IsMiss hooks m → j.IsMiss hooks n → m < n) ∧
    (∀ n, j.IsMiss hooks n → (n ∈ ns ↔ ∃ u ∈ j.own n, ∃ i d, u.Delivered i d)) ∧
    List.Forall₂ (j.Presents hooks) ns ((j.events hooks).filter Event.isPresented)
  worked {m n i k : Nat} {r q : Request K T P} {w v : Entry L K D T P} : w ∈ j.own m → v ∈ j.own n → w.Works i r →
    v.Works k q → (w.time < v.time ↔ m < n)
  delivered {m n i k : Nat} {d d' : Delivery K D T P} {u v : Entry L K D T P} : u ∈ j.own m → v ∈ j.own n →
    u.Delivers i d → v.Delivers k d' → (u.time < v.time ↔ m < n)
  lastWrite {m n i k : Nat} {d d' : Delivery K D T P} {u v : Entry L K D T P} {x y : D} : m < n → u ∈ j.own m →
    v ∈ j.own n → u.Delivered i d → v.Delivered k d' → d.request.key = d'.request.key → d.data = some x →
    d'.data = some y → u.time < v.time ∧ (v.result hooks false).binder.cache.peek? d.request.key = some y

theorem lt_iff_of_loads (h : (journal hooks survives cache ms).lines.Ordered) {a b : Entry L K D T P}
    {r q : Request K T P} (ha : a ∈ (journal hooks survives cache ms).own m)
    (hb : b ∈ (journal hooks survives cache ms).own n) (hr : a.Loads r) (hq : b.Loads q) :
    a.time < b.time ↔ m < n := by
  have hka : a.move.isLoad = true := by rw [hr]; rfl
  have hkb : b.move.isLoad = true := by rw [hq]; rfl
  exact time_lt_iff h.made.left (pairwise_time ms) ha hb hka hkb

theorem lt_iff_of_works (h : (journal hooks survives cache ms).lines.Ordered) {w v : Entry L K D T P} {i k : Nat}
    {r q : Request K T P} (hw : w ∈ (journal hooks survives cache ms).own m)
    (hv : v ∈ (journal hooks survives cache ms).own n) (hr : w.Works i r) (hq : v.Works k q) :
    w.time < v.time ↔ m < n := by
  have hkw : w.move.isWork = true := by rw [hr.move]; rfl
  have hkv : v.move.isWork = true := by rw [hq.move]; rfl
  exact time_lt_iff h.worked.left.left (pairwise_time ms) hw hv hkw hkv

theorem lt_iff_of_delivers (h : (journal hooks survives cache ms).lines.Ordered) {u v : Entry L K D T P}
    {i k : Nat} {d d' : Delivery K D T P} (hu : u ∈ (journal hooks survives cache ms).own m)
    (hv : v ∈ (journal hooks survives cache ms).own n) (hd : u.Delivers i d) (hd' : v.Delivers k d') :
    u.time < v.time ↔ m < n := by
  have hku : u.move.isDelivery = true := by rw [hd.move]; rfl
  have hkv : v.move.isDelivery = true := by rw [hd'.move]; rfl
  exact time_lt_iff h.delivered.left.left.left (pairwise_time ms) hu hv hku hkv

theorem not_isMiss_of_hit {e : Entry L K D T P} {r : Request K T P} {v : D}
    (he : e ∈ (journal hooks survives cache ms).own n) (h : e.Hit hooks r v) :
    ¬ (journal hooks survives cache ms).IsMiss hooks n := by
  rintro ⟨a, ha, q, hm⟩
  obtain ⟨s, hs⟩ := (journal_consistent ms).stage n
  have hown := (hs.life.closed_at_once he h.loads fun hmiss => hmiss.not_hit h).1
  rw [hown] at ha
  obtain rfl := List.mem_singleton.mp ha
  exact hm.not_hit h

theorem journal_computed (h : (journal hooks false cache ms).lines.Ordered) :
    ∃ ns, Increasing ns ∧
      (∀ n, n ∈ ns ↔ ∃ w ∈ (journal hooks false cache ms).own n, ∃ i r, w.Works i r ∧ w.Active) ∧
      List.Forall₂ ((journal hooks false cache ms).Computes hooks) ns
        (((journal hooks false cache ms).events hooks).filter Event.isComputed) := by
  refine ⟨tellersOf hooks Event.isComputed (journal hooks false cache ms).entries, ?_, ?_, ?_⟩
  · refine pairwise_tellersOf (pairwise_time ms) ?_
    intro m n e he e' he' htell htell' hlt
    obtain ⟨i, r, hw, -⟩ := works_of_computed (own_quiet e he) htell
    obtain ⟨i', r', hw', -⟩ := works_of_computed (own_quiet e' he') htell'
    exact (lt_iff_of_works h he he' hw hw').mp hlt
  · intro n
    rw [mem_tellersOf]
    constructor
    · rintro ⟨w, hw, htell⟩
      exact ⟨w, hw, works_of_computed (own_quiet w hw) htell⟩
    · rintro ⟨w, hw, i, r, hworks, hactive⟩
      refine ⟨w, hw, ?_⟩
      rw [computed_of_works hworks hactive]
      exact List.cons_ne_nil _ _
  · refine forall₂_tellersOf ?_
    intro w hw htell
    obtain ⟨i, r, hworks, hactive⟩ := works_of_computed (entry_quiet hw) htell
    obtain ⟨n, hn⟩ := load_of_works hw hworks
    have hown : w ∈ (journal hooks false cache ms).own n := Journal.mem_own.mpr ⟨hw, hn⟩
    obtain ⟨a, ha, q, hm⟩ := missed_of_mem_own hown fun q hl => hl.not_works hworks
    obtain ⟨s, hmiss, -⟩ := miss_of_mem_own ha hm
    obtain rfl := hmiss.of_works hm hown hworks
    exact ⟨n, _, hn, computed_of_works hworks hactive, a, ha, q, hm, rfl⟩

theorem journal_presented (h : (journal hooks false cache ms).lines.Ordered) :
    ∃ ns : List Nat, ns.Pairwise (fun m n => (journal hooks false cache ms).IsMiss hooks m →
        (journal hooks false cache ms).IsMiss hooks n → m < n) ∧
      (∀ n, (journal hooks false cache ms).IsMiss hooks n →
        (n ∈ ns ↔ ∃ u ∈ (journal hooks false cache ms).own n, ∃ i d, u.Delivered i d)) ∧
      List.Forall₂ ((journal hooks false cache ms).Presents hooks) ns
        (((journal hooks false cache ms).events hooks).filter Event.isPresented) := by
  have delivered {u : Entry L K D T P} {n : Nat} (hu : u ∈ (journal hooks false cache ms).own n)
      (hn : (journal hooks false cache ms).IsMiss hooks n)
      (htell : (u.result hooks false).events.filter Event.isPresented ≠ []) : ∃ i d, u.Delivered i d := by
    rcases hit_or_delivered_of_presented (own_quiet u hu) htell with ⟨r, v, hh⟩ | hd
    · exact absurd hn (not_isMiss_of_hit hu hh)
    · exact hd
  refine ⟨tellersOf hooks Event.isPresented (journal hooks false cache ms).entries, ?_, ?_, ?_⟩
  · refine pairwise_tellersOf (pairwise_time ms) ?_
    intro m n e he e' he' htell htell' hlt hmiss hmiss'
    obtain ⟨i, d, hd⟩ := delivered he hmiss htell
    obtain ⟨i', d', hd'⟩ := delivered he' hmiss' htell'
    exact (lt_iff_of_delivers h he he' hd.delivers hd'.delivers).mp hlt
  · intro n hmiss
    rw [mem_tellersOf]
    constructor
    · rintro ⟨u, hu, htell⟩
      exact ⟨u, hu, delivered hu hmiss htell⟩
    · rintro ⟨u, hu, i, d, hd⟩
      refine ⟨u, hu, ?_⟩
      rw [presented_of_delivered hd (own_quiet u hu)]
      exact List.cons_ne_nil _ _
  · refine forall₂_tellersOf ?_
    intro u hu htell
    have hq := entry_quiet hu
    rcases hit_or_delivered_of_presented hq htell with ⟨r, v, hh⟩ | ⟨i, d, hd⟩
    · obtain ⟨n, hn⟩ := load_of_loads hu hh.loads
      exact ⟨n, _, hn, presented_of_hit hh hq, .hit (Journal.mem_own.mpr ⟨hu, hn⟩) hh⟩
    · obtain ⟨n, hn⟩ := load_of_delivers hu hd.delivers
      have hown : u ∈ (journal hooks false cache ms).own n := Journal.mem_own.mpr ⟨hu, hn⟩
      obtain ⟨a, ha, q, hm⟩ := missed_of_mem_own hown fun q hl => hl.not_delivers hd.delivers
      obtain ⟨s, hmiss, -⟩ := miss_of_mem_own ha hm
      obtain ⟨w, k, hlist, hw, hrequest⟩ := hmiss.of_delivers hm hown hd.delivers
      have hwork : w ∈ (journal hooks false cache ms).own n := by simp [hlist]
      refine ⟨n, _, hn, presented_of_delivered hd hq, ?_⟩
      rw [hrequest]
      exact .missed ha hm hwork hw

theorem journal_inOrder (h : ∀ m ∈ ms, m.AtFront) : (journal hooks false cache ms).InOrder hooks := by
  have hordered : (journal hooks false cache ms).lines.Ordered := journal_ordered h
  refine ⟨lt_iff_of_loads hordered, journal_pursued ms, journal_computed hordered, journal_presented hordered,
    lt_iff_of_works hordered, lt_iff_of_delivers hordered, ?_⟩
  intro m n i k d d' u v x y hlt hu hv hd hd' hkey hx hy
  refine ⟨(lt_iff_of_delivers hordered hu hv hd.delivers hd'.delivers).mpr hlt, ?_⟩
  rw [cache_delivered hd' (own_quiet v hv), stored, hy, hkey]
  exact Cache.peek?_put_self

end InOrder

section Front

omit [DecidableEq L] [DecidableEq K] in
theorem atFront_moves (b : Binder L K D T P) (op : Op L K T P) : ∀ m ∈ op.moves b, m.AtFront := by
  intro m hm
  cases op with
  | call c =>
    obtain rfl := List.mem_singleton.mp hm
    trivial
  | serveRequests once =>
    obtain rfl := List.eq_of_mem_replicate hm
    rfl
  | serveDeliveries once =>
    obtain rfl := List.eq_of_mem_replicate hm
    rfl

theorem mem_of_mem_performed {b : Binder L K D T P} {m : Move L K T P} (hm : m ∈ performed hooks b ms) : m ∈ ms := by
  induction ms generalizing b with
  | nil => exact hm
  | cons m' ms ih =>
    rw [performed] at hm
    rcases List.mem_cons.mp hm with rfl | hm
    · exact List.mem_cons_self
    · split at hm
      · cases hm
      · exact List.mem_cons_of_mem m' (ih hm)

theorem atFront_schedule (b : Binder L K D T P) (ops : List (Op L K T P)) :
    ∀ m ∈ schedule hooks b ops, m.AtFront := by
  induction ops generalizing b with
  | nil => exact nofun
  | cons op ops ih =>
    intro m hm
    rcases List.mem_append.mp hm with hm | hm
    · exact atFront_moves b op m (mem_of_mem_performed hm)
    · exact ih _ m hm

end Front

theorem steps_inOrder (hooks : Hooks L K D T P) (cache : Cache K D) (ops : List (Op L K T P)) :
    let j := journal hooks false cache (schedule hooks (ofCache cache []) ops)
    (steps hooks (queued false) (ofCache cache []) ops).binder = j.binder ∧
      (steps hooks (queued false) (ofCache cache []) ops).told = j.events hooks ∧ j.InOrder hooks := by
  obtain ⟨hbinder, htold⟩ := steps_eq_journal hooks cache ops
  exact ⟨hbinder, htold, journal_inOrder (atFront_schedule _ ops)⟩

end TabDeck.Binder
