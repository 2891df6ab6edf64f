import TabDeck.Proofs.Binder.Journal

namespace TabDeck.Binder

variable {L K D T P : Type}

namespace Entry

section Kinds

variable [DecidableEq K] (hooks : Hooks L K D T P) (e : Entry L K D T P) (i : Nat) (r : Request K T P)
  (d : Delivery K D T P)

def Loads : Prop := e.move = .call (.load r.key r.target r.params)

structure Vetoed : Prop where
  loads : e.Loads r
  vetoed : vetoes hooks e.before.listener r = true

structure Hit (data : D) : Prop where
  loads : e.Loads r
  accepted : vetoes hooks e.before.listener r = false
  cached : e.before.cache.peek? r.key = some data

structure Missed : Prop where
  loads : e.Loads r
  accepted : vetoes hooks e.before.listener r = false
  absent : e.before.cache.peek? r.key = none

structure Works : Prop where
  move : e.move = .work i
  request : e.before.requests[i]? = some r

structure Skipped : Prop where
  works : e.Works i r
  canceled : e.before.canceled = true

structure Panicked : Prop where
  works : e.Works i r
  active : e.before.canceled = false
  panic : hooks.compute e.before.computations r.key r.params = .panic

structure Computed (data : Option D) : Prop where
  works : e.Works i r
  active : e.before.canceled = false
  data : hooks.compute e.before.computations r.key r.params = .data data

structure Delivers : Prop where
  move : e.move = .deliver i
  delivery : e.before.deliveries[i]? = some d

structure Dropped : Prop where
  delivers : e.Delivers i d
  canceled : e.before.canceled = true

structure Delivered : Prop where
  delivers : e.Delivers i d
  active : e.before.canceled = false

def Idle : Prop :=
  (∃ i, e.move = .work i ∧ e.before.requests[i]? = none) ∨ ∃ i, e.move = .deliver i ∧ e.before.deliveries[i]? = none

inductive Kind : Prop where
  | vetoed (r : Request K T P) (h : e.Vetoed hooks r)
  | hit (r : Request K T P) (data : D) (h : e.Hit hooks r data)
  | missed (r : Request K T P) (h : e.Missed hooks r)
  | skipped (i : Nat) (r : Request K T P) (h : e.Skipped i r)
  | panicked (i : Nat) (r : Request K T P) (h : e.Panicked hooks i r)
  | computed (i : Nat) (r : Request K T P) (data : Option D) (h : e.Computed hooks i r data)
  | dropped (i : Nat) (d : Delivery K D T P) (h : e.Dropped i d)
  | delivered (i : Nat) (d : Delivery K D T P) (h : e.Delivered i d)
  | canceled (h : e.move = .call .cancel)
  | cleared (h : e.move = .call .clearCache)
  | listening (listener : Option L) (h : e.move = .call (.setListener listener))
  | idle (h : e.Idle)

theorem kind : e.Kind hooks := by
  cases hm : e.move with
  | call c =>
    cases c with
    | load key target params =>
      let r : Request K T P := ⟨key, target, params⟩
      have hl : e.Loads r := hm
      cases hv : vetoes hooks e.before.listener r with
      | true => exact .vetoed r ⟨hl, hv⟩
      | false =>
        cases hd : e.before.cache.peek? r.key with
        | none => exact .missed r ⟨hl, hv, hd⟩
        | some data => exact .hit r data ⟨hl, hv, hd⟩
    | cancel => exact .canceled hm
    | clearCache => exact .cleared hm
    | setListener listener => exact .listening listener hm
  | work i =>
    cases hr : e.before.requests[i]? with
    | none => exact .idle (.inl ⟨i, hm, hr⟩)
    | some r =>
      cases hc : e.before.canceled with
      | true => exact .skipped i r ⟨⟨hm, hr⟩, hc⟩
      | false =>
        cases hp : hooks.compute e.before.computations r.key r.params with
        | panic => exact .panicked i r ⟨⟨hm, hr⟩, hc, hp⟩
        | data data => exact .computed i r data ⟨⟨hm, hr⟩, hc, hp⟩
  | deliver i =>
    cases hd : e.before.deliveries[i]? with
    | none => exact .idle (.inr ⟨i, hm, hd⟩)
    | some d =>
      cases hc : e.before.canceled with
      | true => exact .dropped i d ⟨⟨hm, hd⟩, hc⟩
      | false => exact .delivered i d ⟨⟨hm, hd⟩, hc⟩

end Kinds

section Results

variable [DecidableEq L] [DecidableEq K]

def result (hooks : Hooks L K D T P) (survives : Bool) (e : Entry L K D T P) : Progress L K D T P :=
  Binder.move hooks survives e.before e.move

variable {hooks : Hooks L K D T P} {survives : Bool} {e : Entry L K D T P} {i : Nat} {r : Request K T P}
  {d : Delivery K D T P}

theorem Vetoed.result (h : e.Vetoed hooks r) (hq : e.before.reactions = []) :
    e.result hooks survives =
      ⟨{ e.before with canceled := false }, asking e.before.listener r ++ [.note (.vetoed r.key)], [], false⟩ := by
  rw [Entry.result, h.loads, move_vetoed hq h.vetoed]

theorem Hit.result {data : D} (h : e.Hit hooks r data) (hq : e.before.reactions = []) :
    e.result hooks survives =
      ⟨{ e.before with canceled := false, cache := e.before.cache.touch r.key },
        asking e.before.listener r ++ .note (.hit r.key) :: outcome hooks e.before.listener r (some data),
        [], false⟩ := by
  rw [Entry.result, h.loads, move_hit hq h.accepted h.cached]

theorem Missed.result (h : e.Missed hooks r) (hq : e.before.reactions = []) :
    e.result hooks survives =
      ⟨{ e.before with canceled := false, requests := e.before.requests ++ [hooks.prepared r] },
        asking e.before.listener r ++
          [.note (.miss r.key), .prepared r.key (hooks.prepared r).target r.params], [], false⟩ := by
  rw [Entry.result, h.loads, move_missed hq h.accepted h.absent]

theorem Skipped.result (h : e.Skipped i r) :
    e.result hooks survives =
      ⟨{ e.before with requests := e.before.requests.eraseIdx i }, [.note (.skipped r.key)], [], false⟩ := by
  rw [Entry.result, h.works.move, move_skipped h.works.request h.canceled]

theorem Panicked.result (h : e.Panicked hooks i r) :
    e.result hooks survives =
      ⟨{ e.before with requests := e.before.requests.eraseIdx i, computations := e.before.computations + 1 },
        .computed r.key r.params :: if survives then [.caught] else [], [], !survives⟩ := by
  rw [Entry.result, h.works.move, move_panicked h.works.request h.active h.panic]

theorem Computed.result {data : Option D} (h : e.Computed hooks i r data) :
    e.result hooks survives =
      ⟨{ e.before with requests := e.before.requests.eraseIdx i, computations := e.before.computations + 1,
                       deliveries := e.before.deliveries ++ [⟨r, data⟩] },
        [.computed r.key r.params], [], false⟩ := by
  rw [Entry.result, h.works.move, move_computed h.works.request h.active h.data]

theorem Dropped.result (h : e.Dropped i d) :
    e.result hooks survives =
      ⟨{ e.before with deliveries := e.before.deliveries.eraseIdx i }, [.note (.dropped d.request.key)],
        [], false⟩ := by
  rw [Entry.result, h.delivers.move, move_dropped h.delivers.delivery h.canceled]

theorem Delivered.result (h : e.Delivered i d) (hq : e.before.reactions = []) :
    e.result hooks survives =
      ⟨{ e.before with deliveries := e.before.deliveries.eraseIdx i, cache := stored e.before.cache d },
        outcome hooks e.before.listener d.request d.data, [], false⟩ := by
  rw [Entry.result, h.delivers.move, move_delivered hq h.delivers.delivery h.active]

theorem Idle.result (h : e.Idle) : e.result hooks survives = ⟨e.before, [], [], false⟩ := by
  rcases h with ⟨i, hm, hr⟩ | ⟨i, hm, hd⟩
  · rw [Entry.result, hm, move_work_none hr]
  · rw [Entry.result, hm, move_deliver_none hd]

theorem result_quiet (hq : e.before.reactions = []) : (e.result hooks survives).binder.reactions = [] := by
  cases e.kind hooks with
  | vetoed r h => rw [h.result hq]; exact hq
  | hit r data h => rw [h.result hq]; exact hq
  | missed r h => rw [h.result hq]; exact hq
  | skipped i r h => rw [h.result]; exact hq
  | panicked i r h => rw [h.result]; exact hq
  | computed i r data h => rw [h.result]; exact hq
  | dropped i d h => rw [h.result]; exact hq
  | delivered i d h => rw [h.result hq]; exact hq
  | canceled h => rw [Entry.result, h, move_cancel hq]; exact hq
  | cleared h => rw [Entry.result, h, move_clearCache]; exact hq
  | listening listener h => rw [Entry.result, h, move_setListener]; exact hq
  | idle h => rw [h.result]; exact hq

end Results

end Entry

variable [DecidableEq L] [DecidableEq K] {hooks : Hooks L K D T P} {survives : Bool} {cache : Cache K D}

theorem journal_quiet (ms : List (Move L K T P)) : (journal hooks survives cache ms).binder.reactions = [] := by
  induction ms using List.reverseRecOn with
  | nil => rfl
  | append_singleton ms m ih =>
    rw [journal_concat]
    exact Entry.result_quiet (e := (journal hooks survives cache ms).entry m) ih

theorem entry_quiet {ms : List (Move L K T P)} {e : Entry L K D T P}
    (he : e ∈ (journal hooks survives cache ms).entries) : e.before.reactions = [] := by
  obtain ⟨-, hj⟩ := entry_of_mem he
  rw [hj]
  exact journal_quiet _

theorem own_quiet {ms : List (Move L K T P)} {n : Nat} :
    ∀ e ∈ (journal hooks survives cache ms).own n, e.before.reactions = [] :=
  fun _ he => entry_quiet (Journal.mem_own.mp he).1

end TabDeck.Binder
