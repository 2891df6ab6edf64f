import TabDeck.Binder.Machine

namespace TabDeck.Binder

variable {L K D T P : Type}

inductive Move (L K T P : Type) where
  | call (c : Call L K T P)
  | work (i : Nat)
  | deliver (i : Nat)

def queued (survives : Bool) : Wiring := ⟨if survives then .thread else .queue, false⟩

def Hooks.prepared (hooks : Hooks L K D T P) (r : Request K T P) : Request K T P :=
  { r with target := hooks.prepare r.key r.target r.params }

def vetoes (hooks : Hooks L K D T P) (listener : Option L) (r : Request K T P) : Bool :=
  listener.any fun l => !hooks.accepts l r.key r.target r.params

def asking (listener : Option L) (r : Request K T P) : List (Event L K D T P) :=
  listener.toList.map fun l => .asked l r.key r.target r.params

def outcome (hooks : Hooks L K D T P) (listener : Option L) (r : Request K T P) (data : Option D) :
    List (Event L K D T P) :=
  .presented r.key data r.target r.params ::
    listener.toList.map fun l => .finished l r.key data (hooks.present r.key data r.target r.params) r.params

variable [DecidableEq L] [DecidableEq K]

def move (hooks : Hooks L K D T P) (survives : Bool) (b : Binder L K D T P) : Move L K T P → Progress L K D T P
  | .call c => run hooks (queued survives) b [.call c]
  | .work i =>
    match b.requests[i]? with
    | some r => run hooks (queued survives) { b with requests := b.requests.eraseIdx i } [.compute r]
    | none => ⟨b, [], [], false⟩
  | .deliver i =>
    match b.deliveries[i]? with
    | some d => run hooks (queued survives) { b with deliveries := b.deliveries.eraseIdx i } [.deliver d]
    | none => ⟨b, [], [], false⟩

variable {hooks : Hooks L K D T P} {survives : Bool} {w : Wiring} {b : Binder L K D T P}

theorem run_eq_perform {task : Task L K D T P} (h : (perform hooks w b task).tasks = []) :
    run hooks w b [task] = perform hooks w b task := by
  rw [run]
  generalize perform hooks w b task = p at h ⊢
  obtain ⟨b', events, tasks, panicked⟩ := p
  cases panicked
  · obtain rfl : tasks = [] := h
    simp [run, Progress.before]
  · obtain rfl : tasks = [] := h
    rfl

theorem tell_eq (h : b.reactions = []) (listener : Option L) (m : Moment K) (event : L → Event L K D T P) :
    b.tell listener m event = ⟨b, listener.toList.map event, [], false⟩ := by
  obtain ⟨cache, canceled, current, computations, requests, deliveries, reactions⟩ := b
  obtain rfl : reactions = [] := h
  cases listener <;> rfl

theorem finish_eq (h : b.reactions = []) (listener : Option L) (r : Request K T P) (data : Option D) :
    finish hooks b listener r data = ⟨b, outcome hooks listener r data, [], false⟩ := by
  simp only [finish, tell_eq h, Progress.before]
  rfl

section Load

variable {r : Request K T P}

theorem run_load (h : b.reactions = []) :
    run hooks w b [.call (.load r.key r.target r.params)] =
      (run hooks w { b with canceled := false } [.resolve b.listener r]).before (asking b.listener r) := by
  have hp : perform hooks w b (.call (.load r.key r.target r.params)) =
      ⟨{ b with canceled := false }, asking b.listener r, [.resolve b.listener r], false⟩ := by
    rw [perform, call, tell_eq (b := { b with canceled := false }) h]
    rfl
  rw [run, hp]
  rfl

theorem move_of_resolve (h : b.reactions = []) {b' : Binder L K D T P} {events : List (Event L K D T P)}
    (hr : resolve hooks (queued survives) { b with canceled := false } b.listener r = ⟨b', events, [], false⟩) :
    move hooks survives b (.call (.load r.key r.target r.params)) =
      ⟨b', asking b.listener r ++ events, [], false⟩ := by
  rw [move, run_load h, run_eq_perform (by rw [perform, hr]), perform, hr]
  rfl

theorem move_vetoed (h : b.reactions = []) (hv : vetoes hooks b.listener r = true) :
    move hooks survives b (.call (.load r.key r.target r.params)) =
      ⟨{ b with canceled := false }, asking b.listener r ++ [.note (.vetoed r.key)], [], false⟩ := by
  apply move_of_resolve h
  rw [vetoes] at hv
  rw [resolve, if_pos hv]

theorem move_hit (h : b.reactions = []) (hv : vetoes hooks b.listener r = false) {d : D}
    (hd : b.cache.peek? r.key = some d) :
    move hooks survives b (.call (.load r.key r.target r.params)) =
      ⟨{ b with canceled := false, cache := b.cache.touch r.key },
        asking b.listener r ++ .note (.hit r.key) :: outcome hooks b.listener r (some d), [], false⟩ := by
  apply move_of_resolve h
  rw [resolve, if_neg (by simpa [vetoes] using hv)]
  simp only [hd]
  rw [finish_eq (b := { b with canceled := false, cache := b.cache.touch r.key }) h]
  rfl

theorem move_missed (h : b.reactions = []) (hv : vetoes hooks b.listener r = false)
    (hd : b.cache.peek? r.key = none) :
    move hooks survives b (.call (.load r.key r.target r.params)) =
      ⟨{ b with canceled := false, requests := b.requests ++ [hooks.prepared r] },
        asking b.listener r ++
          [.note (.miss r.key), .prepared r.key (hooks.prepared r).target r.params], [], false⟩ := by
  apply move_of_resolve h
  rw [resolve, if_neg (by simpa [vetoes] using hv)]
  simp only [hd]
  rw [if_neg (by cases survives <;> decide)]
  rfl

end Load

theorem move_cancel (h : b.reactions = []) :
    move hooks survives b (.call .cancel) =
      ⟨{ b with canceled := true }, .note .canceled :: b.listener.toList.map .canceled, [], false⟩ := by
  have hp : perform hooks (queued survives) b (.call .cancel) =
      ⟨{ b with canceled := true }, .note .canceled :: b.listener.toList.map .canceled, [], false⟩ := by
    rw [perform, call, tell_eq (b := { b with canceled := true }) h]
    rfl
  rw [move, run_eq_perform (by rw [hp]), hp]

theorem move_clearCache :
    move hooks survives b (.call .clearCache) = ⟨{ b with cache := b.cache.evictAll }, [], [], false⟩ := by
  rw [move, run_eq_perform rfl]
  rfl

theorem move_setListener (listener : Option L) :
    move hooks survives b (.call (.setListener listener)) = ⟨{ b with listener }, [], [], false⟩ := by
  rw [move, run_eq_perform rfl]
  rfl

section Work

variable {i : Nat} {r : Request K T P}

theorem move_work_none (h : b.requests[i]? = none) : move hooks survives b (.work i) = ⟨b, [], [], false⟩ := by
  simp only [move, h]

theorem move_work {p : Progress L K D T P} (hr : b.requests[i]? = some r)
    (hp : compute hooks (queued survives) { b with requests := b.requests.eraseIdx i } r = p) (ht : p.tasks = []) :
    move hooks survives b (.work i) = p := by
  simp only [move, hr]
  rw [run_eq_perform (by rwa [perform, hp]), perform, hp]

theorem move_skipped (hr : b.requests[i]? = some r) (hc : b.canceled = true) :
    move hooks survives b (.work i) =
      ⟨{ b with requests := b.requests.eraseIdx i }, [.note (.skipped r.key)], [], false⟩ := by
  apply move_work hr _ rfl
  rw [compute, if_pos hc]

theorem move_panicked (hr : b.requests[i]? = some r) (hc : b.canceled = false)
    (hp : hooks.compute b.computations r.key r.params = .panic) :
    move hooks survives b (.work i) =
      ⟨{ b with requests := b.requests.eraseIdx i, computations := b.computations + 1 },
        .computed r.key r.params :: if survives then [.caught] else [], [], !survives⟩ := by
  apply move_work hr _ rfl
  rw [compute, if_neg (by simp [hc])]
  simp only [hp]
  cases survives <;> rfl

theorem move_computed (hr : b.requests[i]? = some r) (hc : b.canceled = false) {data : Option D}
    (hp : hooks.compute b.computations r.key r.params = .data data) :
    move hooks survives b (.work i) =
      ⟨{ b with requests := b.requests.eraseIdx i, computations := b.computations + 1,
                deliveries := b.deliveries ++ [⟨r, data⟩] }, [.computed r.key r.params], [], false⟩ := by
  apply move_work hr _ rfl
  rw [compute, if_neg (by simp [hc])]
  simp only [hp]
  rfl

end Work

section Deliver

variable {i : Nat} {d : Delivery K D T P}

theorem move_deliver_none (h : b.deliveries[i]? = none) :
    move hooks survives b (.deliver i) = ⟨b, [], [], false⟩ := by
  simp only [move, h]

theorem move_deliver {p : Progress L K D T P} (hd : b.deliveries[i]? = some d)
    (hp : deliver hooks { b with deliveries := b.deliveries.eraseIdx i } d = p) (ht : p.tasks = []) :
    move hooks survives b (.deliver i) = p := by
  simp only [move, hd]
  rw [run_eq_perform (by rwa [perform, hp]), perform, hp]

theorem move_dropped (hd : b.deliveries[i]? = some d) (hc : b.canceled = true) :
    move hooks survives b (.deliver i) =
      ⟨{ b with deliveries := b.deliveries.eraseIdx i }, [.note (.dropped d.request.key)], [], false⟩ := by
  apply move_deliver hd _ rfl
  rw [deliver, if_pos hc]

def stored (cache : Cache K D) (d : Delivery K D T P) : Cache K D :=
  d.data.elim cache (cache.put d.request.key)

theorem deliver_active (h : b.reactions = []) (hc : b.canceled = false) :
    deliver hooks b d =
      ⟨{ b with cache := stored b.cache d }, outcome hooks b.listener d.request d.data, [], false⟩ := by
  rw [deliver, if_neg (by simp [hc])]
  obtain ⟨r, data⟩ := d
  cases data with
  | none => exact finish_eq h ..
  | some data => exact finish_eq (b := { b with cache := b.cache.put r.key data }) h ..

theorem move_delivered (h : b.reactions = []) (hd : b.deliveries[i]? = some d) (hc : b.canceled = false) :
    move hooks survives b (.deliver i) =
      ⟨{ b with deliveries := b.deliveries.eraseIdx i, cache := stored b.cache d },
        outcome hooks b.listener d.request d.data, [], false⟩ :=
  move_deliver hd (deliver_active (b := { b with deliveries := b.deliveries.eraseIdx i }) h hc) rfl

end Deliver

end TabDeck.Binder
