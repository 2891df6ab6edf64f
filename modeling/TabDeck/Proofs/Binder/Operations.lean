import TabDeck.Proofs.Binder.Step

namespace TabDeck.Binder

variable {L K D T P : Type}

/-- The calls of hooks and listeners, and the notes. -/
def Event.isTold : Event L K D T P → Bool
  | .served _ => false
  | _ => true

def Progress.told (p : Progress L K D T P) : List (Event L K D T P) := p.events.filter Event.isTold

theorem told_asking (listener : Option L) (r : Request K T P) :
    (asking listener r : List (Event L K D T P)).filter Event.isTold = asking listener r := by
  cases listener <;> rfl

theorem told_outcome (hooks : Hooks L K D T P) (listener : Option L) (r : Request K T P) (data : Option D) :
    (outcome hooks listener r data).filter Event.isTold = outcome hooks listener r data := by
  cases listener <;> rfl

def Progress.followedBy (p q : Progress L K D T P) : Progress L K D T P :=
  ⟨q.binder, p.events ++ q.events, [], p.panicked || q.panicked⟩

theorem followedBy_assoc (p q r : Progress L K D T P) :
    (p.followedBy q).followedBy r = p.followedBy (q.followedBy r) := by
  simp [Progress.followedBy, Bool.or_assoc]

def Progress.andThen (p : Progress L K D T P) (next : Binder L K D T P → Progress L K D T P) :
    Progress L K D T P :=
  if p.panicked then p else (next p.binder).before p.events

theorem told_followedBy (p q : Progress L K D T P) : (p.followedBy q).told = p.told ++ q.told :=
  List.filter_append p.events q.events

theorem told_before (p : Progress L K D T P) (events : List (Event L K D T P)) :
    (p.before events).told = events.filter Event.isTold ++ p.told :=
  List.filter_append events p.events

theorem before_andThen (p : Progress L K D T P) (events : List (Event L K D T P))
    (next : Binder L K D T P → Progress L K D T P) :
    (p.before events).andThen next = (p.andThen next).before events := by
  obtain ⟨b, told, tasks, panicked⟩ := p
  cases panicked
  · simp [Progress.andThen, Progress.before]
  · rfl

theorem andThen_assoc (p : Progress L K D T P) (f g : Binder L K D T P → Progress L K D T P) :
    (p.andThen f).andThen g = p.andThen fun b => (f b).andThen g := by
  obtain ⟨b, told, tasks, panicked⟩ := p
  cases panicked
  · exact before_andThen (f b) told g
  · rfl

theorem andThen_congr {p : Progress L K D T P} {f g : Binder L K D T P → Progress L K D T P}
    (h : f p.binder = g p.binder) : p.andThen f = p.andThen g := by
  rw [Progress.andThen, Progress.andThen, h]

theorem andThen_done {p : Progress L K D T P} (h : p.tasks = []) : (p.andThen fun b => ⟨b, [], [], false⟩) = p := by
  obtain ⟨b, told, tasks, panicked⟩ := p
  obtain rfl : tasks = [] := h
  cases panicked
  · simp [Progress.andThen, Progress.before]
  · rfl

theorem compute_tasks {hooks : Hooks L K D T P} {b : Binder L K D T P} (r : Request K T P) :
    (compute hooks (queued false) b r).tasks = [] := by
  rw [compute]
  split
  · rfl
  · split
    · rfl
    · rfl

def turns (once : Bool) (size : Nat) : Nat := if once then min 1 size else size

def Op.moves (b : Binder L K D T P) : Op L K T P → List (Move L K T P)
  | .call c => [.call c]
  | .serveRequests once => List.replicate (turns once b.requests.length) (.work 0)
  | .serveDeliveries once => List.replicate (turns once b.deliveries.length) (.deliver 0)

def Op.report : Op L K T P → Nat → List (Event L K D T P)
  | .call _, _ => []
  | _, count => [.served count]

variable [DecidableEq L] [DecidableEq K]

def steps (hooks : Hooks L K D T P) (w : Wiring) (b : Binder L K D T P) : List (Op L K T P) → Progress L K D T P
  | [] => ⟨b, [], [], false⟩
  | op :: ops =>
    let p := step hooks w b op
    p.followedBy (steps hooks w p.binder ops)

def moves (hooks : Hooks L K D T P) (b : Binder L K D T P) : List (Move L K T P) → Progress L K D T P
  | [] => ⟨b, [], [], false⟩
  | m :: ms => (move hooks false b m).andThen (moves hooks · ms)

variable {hooks : Hooks L K D T P} {w : Wiring} {b : Binder L K D T P}

theorem steps_append (xs ys : List (Op L K T P)) :
    steps hooks w b (xs ++ ys) = (steps hooks w b xs).followedBy (steps hooks w (steps hooks w b xs).binder ys) := by
  induction xs generalizing b with
  | nil => cases ys <;> rfl
  | cons op xs ih =>
    rw [List.cons_append, steps, ih, steps, followedBy_assoc]
    rfl

theorem told_move (hq : b.reactions = []) (m : Move L K T P) :
    (move hooks false b m).told = (move hooks false b m).events := by
  let e : Entry L K D T P := ⟨0, none, b, m⟩
  have hq' : e.before.reactions = [] := hq
  change (e.result hooks false).told = (e.result hooks false).events
  rw [Progress.told]
  cases e.kind hooks with
  | vetoed r h =>
    rw [h.result hq', List.filter_append, told_asking]
    rfl
  | hit r data h =>
    rw [h.result hq', List.filter_append, told_asking, List.filter_cons_of_pos rfl, told_outcome]
  | missed r h =>
    rw [h.result hq', List.filter_append, told_asking]
    rfl
  | skipped i r h =>
    rw [h.result]
    rfl
  | panicked i r h =>
    rw [h.result]
    rfl
  | computed i r data h =>
    rw [h.result]
    rfl
  | dropped i d h =>
    rw [h.result]
    rfl
  | delivered i d h => rw [h.result hq', told_outcome]
  | canceled h =>
    rw [Entry.result, h, move_cancel hq']
    cases e.before.listener <;> rfl
  | cleared h => rw [Entry.result, h, move_clearCache, List.filter_nil]
  | listening listener h => rw [Entry.result, h, move_setListener, List.filter_nil]
  | idle h => rw [h.result, List.filter_nil]

theorem run_tasks (agenda : List (Task L K D T P)) : (run hooks w b agenda).tasks = [] := by
  fun_induction run with
  | case1 => rfl
  | case2 => rfl
  | case3 b task rest p hp ih => exact ih

theorem run_cons {task : Task L K D T P} (h : (perform hooks w b task).tasks = []) (rest : List (Task L K D T P)) :
    run hooks w b (task :: rest) = (perform hooks w b task).andThen (run hooks w · rest) := by
  rw [run]
  generalize perform hooks w b task = p at h ⊢
  obtain ⟨b', events, tasks, panicked⟩ := p
  obtain rfl : tasks = [] := h
  cases panicked <;> rfl

theorem move_quiet (hq : b.reactions = []) (m : Move L K T P) : (move hooks false b m).binder.reactions = [] :=
  @Entry.result_quiet L K D T P _ _ hooks false ⟨0, none, b, m⟩ hq

omit [DecidableEq L] [DecidableEq K] in
theorem queued_false_ne : (queued false).worker ≠ .thread := by decide

theorem step_eq_run (op : Op L K T P) : step hooks (queued false) b op = run hooks (queued false) b [op.task] := by
  rw [step, if_neg queued_false_ne]

section Serving

structure Serving (hooks : Hooks L K D T P) (task : Bool → Nat → Task L K D T P) (m : Move L K T P)
    (size : Binder L K D T P → Nat) : Prop where
  stops {b : Binder L K D T P} {once : Bool} {ran : Nat} : size b = 0 ∨ once = true ∧ ran = 1 →
    run hooks (queued false) b [task once ran] = ⟨b, [.served ran], [], false⟩
  goes {b : Binder L K D T P} {once : Bool} {ran : Nat} : b.reactions = [] → size b ≠ 0 →
    ¬ (once = true ∧ ran = 1) →
      run hooks (queued false) b [task once ran] =
        (move hooks false b m).andThen (run hooks (queued false) · [task once (ran + 1)])
  size_move {b : Binder L K D T P} : b.reactions = [] → size (move hooks false b m).binder = size b - 1

variable {task : Bool → Nat → Task L K D T P} {m : Move L K T P} {size : Binder L K D T P → Nat}

theorem Serving.all (h : Serving hooks task m size) (hq : b.reactions = []) (ran : Nat) :
    run hooks (queued false) b [task false ran] =
      (moves hooks b (List.replicate (size b) m)).andThen
        fun b' => ⟨b', [.served (ran + size b)], [], false⟩ := by
  induction hn : size b generalizing b ran with
  | zero =>
    rw [h.stops (.inl hn)]
    rfl
  | succ n ih =>
    have hrest := h.size_move hq
    rw [h.goes hq (by omega) (by simp), List.replicate_succ, moves, andThen_assoc]
    apply andThen_congr
    rw [ih (move_quiet hq m) (ran + 1) (by omega), Nat.add_right_comm, Nat.add_assoc]

theorem Serving.once (h : Serving hooks task m size) (hq : b.reactions = []) :
    run hooks (queued false) b [task true 0] =
      (moves hooks b (List.replicate (min 1 (size b)) m)).andThen
        fun b' => ⟨b', [.served (min 1 (size b))], [], false⟩ := by
  by_cases hn : size b = 0
  · rw [h.stops (.inl hn), hn]
    rfl
  · have hmin : min 1 (size b) = 1 := by omega
    rw [h.goes hq hn (by simp), hmin, List.replicate_one, moves, andThen_assoc]
    apply andThen_congr
    rw [h.stops (.inr ⟨rfl, rfl⟩)]
    rfl

theorem Serving.serve (h : Serving hooks task m size) (hq : b.reactions = []) (once : Bool) :
    run hooks (queued false) b [task once 0] =
      (moves hooks b (List.replicate (turns once (size b)) m)).andThen
        fun b' => ⟨b', [.served (turns once (size b))], [], false⟩ := by
  cases once with
  | true => exact h.once hq
  | false => simpa [turns] using h.all hq 0

theorem deliver_tasks (hq : b.reactions = []) (d : Delivery K D T P) : (deliver hooks b d).tasks = [] := by
  rw [deliver]
  split
  · rfl
  · rw [finish_eq]
    exact hq

theorem requests_work : (move hooks false b (.work 0)).binder.requests = b.requests.tail := by
  cases hr : b.requests with
  | nil =>
    rw [move_work_none (by rw [hr]; rfl)]
    exact hr
  | cons r rest =>
    have hi : b.requests[0]? = some r := by rw [hr]; rfl
    have herase : b.requests.eraseIdx 0 = rest := by rw [hr]; rfl
    cases hc : b.canceled with
    | true =>
      rw [move_skipped hi hc]
      exact herase
    | false =>
      cases hp : hooks.compute b.computations r.key r.params with
      | panic =>
        rw [move_panicked hi hc hp]
        exact herase
      | data data =>
        rw [move_computed hi hc hp]
        exact herase

theorem deliveries_deliver (hq : b.reactions = []) :
    (move hooks false b (.deliver 0)).binder.deliveries = b.deliveries.tail := by
  cases hd : b.deliveries with
  | nil =>
    rw [move_deliver_none (by rw [hd]; rfl)]
    exact hd
  | cons d rest =>
    have hi : b.deliveries[0]? = some d := by rw [hd]; rfl
    have herase : b.deliveries.eraseIdx 0 = rest := by rw [hd]; rfl
    cases hc : b.canceled with
    | true =>
      rw [move_dropped hi hc]
      exact herase
    | false =>
      rw [move_delivered hq hi hc]
      exact herase

theorem serving_requests :
    Serving hooks .serveRequests (.work 0) fun b : Binder L K D T P => b.requests.length where
  stops {b once ran} h := by
    have hp : perform hooks (queued false) b (.serveRequests once ran) = ⟨b, [.served ran], [], false⟩ := by
      rw [perform]
      split
      · rfl
      · next r rest hr =>
        have ho : once = true ∧ ran = 1 := by simpa [hr] using h
        simp [ho]
    rw [run_eq_perform (by rw [hp]), hp]
  goes {b once ran} hq h ho := by
    obtain ⟨r, rest, hr⟩ := List.exists_cons_of_ne_nil (List.length_pos_iff.mp (Nat.pos_of_ne_zero h))
    have hi : b.requests[0]? = some r := by rw [hr]; rfl
    have herase : b.requests.eraseIdx 0 = rest := by rw [hr]; rfl
    have hp : perform hooks (queued false) b (.serveRequests once ran) =
        ⟨{ b with requests := rest }, [], [.compute r, .serveRequests once (ran + 1)], false⟩ := by
      rw [perform, hr]
      simp [ho]
    rw [run, hp, move_work hi rfl (compute_tasks r), herase]
    have ht : (perform hooks (queued false) { b with requests := rest } (.compute r)).tasks = [] := compute_tasks r
    exact congrArg (Progress.before · []) (run_cons ht [.serveRequests once (ran + 1)])
  size_move hq := by rw [requests_work, List.length_tail]

theorem serving_deliveries :
    Serving hooks .serveDeliveries (.deliver 0) fun b : Binder L K D T P => b.deliveries.length where
  stops {b once ran} h := by
    have hp : perform hooks (queued false) b (.serveDeliveries once ran) = ⟨b, [.served ran], [], false⟩ := by
      rw [perform]
      split
      · rfl
      · next d rest hd =>
        have ho : once = true ∧ ran = 1 := by simpa [hd] using h
        simp [ho]
    rw [run_eq_perform (by rw [hp]), hp]
  goes {b once ran} hq h ho := by
    obtain ⟨d, rest, hd⟩ := List.exists_cons_of_ne_nil (List.length_pos_iff.mp (Nat.pos_of_ne_zero h))
    have hi : b.deliveries[0]? = some d := by rw [hd]; rfl
    have herase : b.deliveries.eraseIdx 0 = rest := by rw [hd]; rfl
    have hp : perform hooks (queued false) b (.serveDeliveries once ran) =
        ⟨{ b with deliveries := rest }, [], [.deliver d, .serveDeliveries once (ran + 1)], false⟩ := by
      rw [perform, hd]
      simp [ho]
    have ht (ds : List (Delivery K D T P)) : (deliver hooks { b with deliveries := ds } d).tasks = [] :=
      deliver_tasks (b := { b with deliveries := ds }) hq d
    rw [run, hp, move_deliver hi rfl (ht _), herase]
    have ht' : (perform hooks (queued false) { b with deliveries := rest } (.deliver d)).tasks = [] := ht rest
    exact congrArg (Progress.before · []) (run_cons ht' [.serveDeliveries once (ran + 1)])
  size_move hq := by rw [deliveries_deliver hq, List.length_tail]

end Serving

theorem move_tasks (m : Move L K T P) : (move hooks false b m).tasks = [] := by
  cases m with
  | call c => exact run_tasks [.call c]
  | work i =>
    rw [move]
    split
    · exact run_tasks _
    · rfl
  | deliver i =>
    rw [move]
    split
    · exact run_tasks _
    · rfl

theorem moves_singleton (m : Move L K T P) : moves hooks b [m] = move hooks false b m := andThen_done (move_tasks m)

theorem step_call (c : Call L K T P) : step hooks (queued false) b (.call c) = move hooks false b (.call c) :=
  step_eq_run (.call c)

theorem step_eq_moves (hq : b.reactions = []) (op : Op L K T P) :
    step hooks (queued false) b op =
      (moves hooks b (op.moves b)).andThen fun b' => ⟨b', op.report (op.moves b).length, [], false⟩ := by
  cases op with
  | call c =>
    rw [step_call, Op.moves, moves_singleton]
    exact (andThen_done (move_tasks (.call c))).symm
  | serveRequests once =>
    rw [step_eq_run, Op.moves, List.length_replicate]
    exact serving_requests.serve hq once
  | serveDeliveries once =>
    rw [step_eq_run, Op.moves, List.length_replicate]
    exact serving_deliveries.serve hq once

section Schedules

def performed (hooks : Hooks L K D T P) (b : Binder L K D T P) : List (Move L K T P) → List (Move L K T P)
  | [] => []
  | m :: ms =>
    let p := move hooks false b m
    m :: if p.panicked then [] else performed hooks p.binder ms

def schedule (hooks : Hooks L K D T P) (b : Binder L K D T P) : List (Op L K T P) → List (Move L K T P)
  | [] => []
  | op :: ops => performed hooks b (op.moves b) ++ schedule hooks (step hooks (queued false) b op).binder ops

def Journal.events (hooks : Hooks L K D T P) (j : Journal L K D T P) : List (Event L K D T P) :=
  j.entries.flatMap fun e => (e.result hooks false).events

theorem events_next (j : Journal L K D T P) (m : Move L K T P) :
    (j.next hooks false m).events hooks = j.events hooks ++ (move hooks false j.binder m).events := by
  rw [Journal.events, next_entries, List.flatMap_append, List.flatMap_singleton]
  rfl

theorem foldl_performed (hooks : Hooks L K D T P) (ms : List (Move L K T P)) (j : Journal L K D T P) :
    let j' := (performed hooks j.binder ms).foldl (Journal.next hooks false) j
    j'.binder = (moves hooks j.binder ms).binder ∧
      j'.events hooks = j.events hooks ++ (moves hooks j.binder ms).events := by
  induction ms generalizing j with
  | nil => exact ⟨rfl, (List.append_nil _).symm⟩
  | cons m ms ih =>
    rw [performed, moves, Progress.andThen]
    cases hp : (move hooks false j.binder m).panicked with
    | true => exact ⟨rfl, events_next j m⟩
    | false =>
      obtain ⟨hbinder, hevents⟩ := ih (j.next hooks false m)
      refine ⟨hbinder, hevents.trans ?_⟩
      rw [events_next, List.append_assoc]
      rfl

theorem told_moves (hq : b.reactions = []) (ms : List (Move L K T P)) :
    (moves hooks b ms).told = (moves hooks b ms).events := by
  induction ms generalizing b with
  | nil => rfl
  | cons m ms ih =>
    rw [moves, Progress.andThen]
    split
    · exact told_move hq m
    · have hm : (move hooks false b m).events.filter Event.isTold = (move hooks false b m).events := told_move hq m
      rw [told_before, ih (move_quiet hq m), hm]
      rfl

theorem moves_quiet (hq : b.reactions = []) (ms : List (Move L K T P)) :
    (moves hooks b ms).binder.reactions = [] := by
  induction ms generalizing b with
  | nil => exact hq
  | cons m ms ih =>
    rw [moves, Progress.andThen]
    split
    · exact move_quiet hq m
    · exact ih (move_quiet hq m)

theorem step_moved (hooks : Hooks L K D T P) (hq : b.reactions = []) (op : Op L K T P) :
    (step hooks (queued false) b op).binder = (moves hooks b (op.moves b)).binder ∧
      (step hooks (queued false) b op).told = (moves hooks b (op.moves b)).events := by
  rw [step_eq_moves hq, Progress.andThen]
  have htold : (moves hooks b (op.moves b)).told = (moves hooks b (op.moves b)).events := told_moves hq _
  split
  · exact ⟨rfl, htold⟩
  · refine ⟨rfl, ?_⟩
    have hreport : (op.report (op.moves b).length : List (Event L K D T P)).filter Event.isTold = [] := by
      cases op <;> rfl
    have hm : (moves hooks b (op.moves b)).events.filter Event.isTold = (moves hooks b (op.moves b)).events := htold
    rw [told_before, hm, Progress.told, hreport, List.append_nil]

theorem foldl_schedule (hooks : Hooks L K D T P) (ops : List (Op L K T P)) (j : Journal L K D T P)
    (hq : j.binder.reactions = []) :
    let j' := (schedule hooks j.binder ops).foldl (Journal.next hooks false) j
    j'.binder = (steps hooks (queued false) j.binder ops).binder ∧
      j'.events hooks = j.events hooks ++ (steps hooks (queued false) j.binder ops).told := by
  induction ops generalizing j with
  | nil => exact ⟨rfl, (List.append_nil _).symm⟩
  | cons op ops ih =>
    obtain ⟨hbinder, hevents⟩ := foldl_performed hooks (op.moves j.binder) j
    obtain ⟨hstep, htold⟩ := step_moved hooks hq op
    intro j'
    let j1 := (performed hooks j.binder (op.moves j.binder)).foldl (Journal.next hooks false) j
    have hj1 : (step hooks (queued false) j.binder op).binder = j1.binder := hstep.trans hbinder.symm
    have hq1 : j1.binder.reactions = [] := hbinder ▸ moves_quiet hq (op.moves j.binder)
    have hj' : j' = (schedule hooks j1.binder ops).foldl (Journal.next hooks false) j1 := by
      rw [← hj1, ← List.foldl_append]
      rfl
    obtain ⟨hb, he⟩ := ih j1 hq1
    rw [hj', steps, told_followedBy, htold, hj1]
    refine ⟨hb, he.trans ?_⟩
    rw [← List.append_assoc, ← hevents]

theorem steps_eq_journal (hooks : Hooks L K D T P) (cache : Cache K D) (ops : List (Op L K T P)) :
    let j := journal hooks false cache (schedule hooks (ofCache cache []) ops)
    (steps hooks (queued false) (ofCache cache []) ops).binder = j.binder ∧
      (steps hooks (queued false) (ofCache cache []) ops).told = j.events hooks := by
  obtain ⟨hbinder, hevents⟩ := foldl_schedule hooks ops (.ofCache cache) rfl
  exact ⟨hbinder.symm, hevents.symm⟩

end Schedules

end TabDeck.Binder
