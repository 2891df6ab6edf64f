import TabDeck.Proofs.Binder.Operations

namespace TabDeck.Binder

variable {L K D T P : Type}

def inlined : Wiring := ⟨.inline, true⟩

def serves : List (Op L K T P) := [.serveRequests false, .serveDeliveries false]

/-- A call, after which the worker and then the user interface serve all that is queued. -/
def drained (c : Call L K T P) : List (Op L K T P) := .call c :: serves

structure Agree (p q : Progress L K D T P) : Prop where
  binder : p.binder = q.binder
  told : p.told = q.told
  panicked : p.panicked = q.panicked

structure AtRest (b : Binder L K D T P) : Prop where
  quiet : b.reactions = []
  requests : b.requests = []
  deliveries : b.deliveries = []

theorem Agree.followedBy {p q p' q' : Progress L K D T P} (h : Agree p q) (h' : Agree p' q') :
    Agree (p.followedBy p') (q.followedBy q') where
  binder := h'.binder
  told := by rw [told_followedBy, told_followedBy, h.told, h'.told]
  panicked := by simp only [Progress.followedBy, h.panicked, h'.panicked]

variable [DecidableEq L] [DecidableEq K] {hooks : Hooks L K D T P} {b : Binder L K D T P} {r : Request K T P}

theorem step_inlined (c : Call L K T P) : step hooks inlined b (.call c) = run hooks inlined b [.call c] := by
  rw [step, if_neg (by decide)]
  rfl

section Queues

theorem step_requests_nil (hq : b.reactions = []) (h : b.requests = []) :
    step hooks (queued false) b (.serveRequests false) = ⟨b, [.served 0], [], false⟩ := by
  rw [step_eq_moves hq, Op.moves, h]
  rfl

theorem step_deliveries_nil (hq : b.reactions = []) (h : b.deliveries = []) :
    step hooks (queued false) b (.serveDeliveries false) = ⟨b, [.served 0], [], false⟩ := by
  rw [step_eq_moves hq, Op.moves, h]
  rfl

theorem step_requests_singleton (hq : b.reactions = []) (h : b.requests = [r]) :
    step hooks (queued false) b (.serveRequests false) =
      (move hooks false b (.work 0)).andThen fun b' => ⟨b', [.served 1], [], false⟩ := by
  rw [step_eq_moves hq, Op.moves, h, ← moves_singleton]
  rfl

theorem step_deliveries_singleton {d : Delivery K D T P} (hq : b.reactions = []) (h : b.deliveries = [d]) :
    step hooks (queued false) b (.serveDeliveries false) =
      (move hooks false b (.deliver 0)).andThen fun b' => ⟨b', [.served 1], [], false⟩ := by
  rw [step_eq_moves hq, Op.moves, h, ← moves_singleton]
  rfl

omit [DecidableEq L] [DecidableEq K] in
theorem told_served (listener : Option L) (r : Request K T P) (data : Option D) :
    (.computed r.key r.params :: .served 1 :: (outcome hooks listener r data ++ [.served 1])).filter Event.isTold =
      (.computed r.key r.params :: outcome hooks listener r data).filter Event.isTold := by
  cases listener <;> rfl

variable {cache : Cache K D} {listener : Option L} {n : Nat}

theorem steps_serves_panicked (hp : hooks.compute n r.key r.params = .panic) :
    steps hooks (queued false) ⟨cache, false, listener, n, [r], [], []⟩ serves =
      ⟨⟨cache, false, listener, n + 1, [], [], []⟩, [.computed r.key r.params, .served 0], [], true⟩ := by
  let b : Binder L K D T P := ⟨cache, false, listener, n, [r], [], []⟩
  have hwork : step hooks (queued false) b (.serveRequests false) =
      ⟨⟨cache, false, listener, n + 1, [], [], []⟩, [.computed r.key r.params], [], true⟩ := by
    rw [step_requests_singleton (b := b) rfl rfl, move_panicked (b := b) rfl rfl hp]
    rfl
  change steps hooks (queued false) b serves = _
  simp only [serves, steps, hwork]
  rw [step_deliveries_nil rfl rfl]
  rfl

theorem steps_serves_computed {data : Option D} (hp : hooks.compute n r.key r.params = .data data) :
    steps hooks (queued false) ⟨cache, false, listener, n, [r], [], []⟩ serves =
      ⟨⟨stored cache ⟨r, data⟩, false, listener, n + 1, [], [], []⟩,
        .computed r.key r.params :: .served 1 :: (outcome hooks listener r data ++ [.served 1]), [], false⟩ := by
  let b : Binder L K D T P := ⟨cache, false, listener, n, [r], [], []⟩
  let b' : Binder L K D T P := ⟨cache, false, listener, n + 1, [], [⟨r, data⟩], []⟩
  have hwork : step hooks (queued false) b (.serveRequests false) =
      ⟨b', [.computed r.key r.params, .served 1], [], false⟩ := by
    rw [step_requests_singleton (b := b) rfl rfl, move_computed (b := b) rfl rfl hp]
    rfl
  have hdeliver : step hooks (queued false) b' (.serveDeliveries false) =
      ⟨⟨stored cache ⟨r, data⟩, false, listener, n + 1, [], [], []⟩,
        outcome hooks listener r data ++ [.served 1], [], false⟩ := by
    rw [step_deliveries_singleton (b := b') rfl rfl, move_delivered (b := b') rfl rfl rfl]
    rfl
  change steps hooks (queued false) b serves = _
  simp only [serves, steps, hwork, hdeliver]
  simp [Progress.followedBy]

end Queues

section Spot

theorem resolve_inlined (hooks : Hooks L K D T P) (hq : b.reactions = []) {listener : Option L}
    (h : vetoes hooks listener r = true ∨ b.cache.peek? r.key ≠ none) :
    resolve hooks inlined b listener r = resolve hooks (queued false) b listener r ∧
      (resolve hooks (queued false) b listener r).tasks = [] := by
  rw [vetoes] at h
  rw [resolve, resolve]
  split
  · exact ⟨rfl, rfl⟩
  · next hv =>
    split
    · refine ⟨rfl, ?_⟩
      rw [finish_eq (b := { b with cache := b.cache.touch r.key }) hq]
      rfl
    · next hd => exact absurd hd (h.resolve_left hv)

theorem run_inlined_load (hq : b.reactions = [])
    (h : vetoes hooks b.listener r = true ∨ b.cache.peek? r.key ≠ none) :
    run hooks inlined b [.call (.load r.key r.target r.params)] =
      move hooks false b (.call (.load r.key r.target r.params)) := by
  obtain ⟨heq, ht⟩ := resolve_inlined hooks (b := { b with canceled := false }) hq h
  have hp : perform hooks inlined { b with canceled := false } (.resolve b.listener r) =
      perform hooks (queued false) { b with canceled := false } (.resolve b.listener r) := heq
  have ht' : (perform hooks (queued false) { b with canceled := false } (.resolve b.listener r)).tasks = [] := ht
  rw [move, run_load hq, run_load hq, run_eq_perform (hp ▸ ht'), run_eq_perform ht', hp]

theorem run_inlined_call {c : Call L K T P} (h : (b.call c).tasks = []) :
    run hooks inlined b [.call c] = move hooks false b (.call c) := by
  have hrun (w : Wiring) : run hooks w b [.call c] = perform hooks w b (.call c) := run_eq_perform h
  rw [move, hrun, hrun]
  rfl

theorem run_inlined_missed (hq : b.reactions = []) (hv : vetoes hooks b.listener r = false)
    (hd : b.cache.peek? r.key = none) :
    run hooks inlined b [.call (.load r.key r.target r.params)] =
      (run hooks inlined { b with canceled := false } [.compute (hooks.prepared r)]).before
        (asking b.listener r ++ [.note (.miss r.key), .prepared r.key (hooks.prepared r).target r.params]) := by
  have hp : perform hooks inlined { b with canceled := false } (.resolve b.listener r) =
      ⟨{ b with canceled := false },
        [.note (.miss r.key), .prepared r.key (hooks.prepared r).target r.params], [.compute (hooks.prepared r)],
        false⟩ := by
    rw [perform, resolve, if_neg (by simpa [vetoes] using hv)]
    simp only [hd]
    rfl
  rw [run_load hq, run, hp]
  simp [Progress.before]

theorem run_inlined_panicked (hc : b.canceled = false)
    (hp : hooks.compute b.computations r.key r.params = .panic) :
    run hooks inlined b [.compute r] =
      ⟨{ b with computations := b.computations + 1 }, [.computed r.key r.params], [], true⟩ := by
  have hcompute : perform hooks inlined b (.compute r) =
      ⟨{ b with computations := b.computations + 1 }, [.computed r.key r.params], [], true⟩ := by
    rw [perform, compute, if_neg (by simp [hc])]
    simp only [hp]
    rfl
  rw [run_eq_perform (by rw [hcompute]), hcompute]

theorem run_inlined_computed (hq : b.reactions = []) (hc : b.canceled = false) {data : Option D}
    (hp : hooks.compute b.computations r.key r.params = .data data) :
    run hooks inlined b [.compute r] =
      ⟨{ b with computations := b.computations + 1, cache := stored b.cache ⟨r, data⟩ },
        .computed r.key r.params :: outcome hooks b.listener r data, [], false⟩ := by
  have hcompute : perform hooks inlined b (.compute r) =
      ⟨{ b with computations := b.computations + 1 }, [.computed r.key r.params], [.deliver ⟨r, data⟩],
        false⟩ := by
    rw [perform, compute, if_neg (by simp [hc])]
    simp only [hp]
    rfl
  have hdeliver : perform hooks inlined { b with computations := b.computations + 1 } (.deliver ⟨r, data⟩) =
      ⟨{ b with computations := b.computations + 1, cache := stored b.cache ⟨r, data⟩ },
        outcome hooks b.listener r data, [], false⟩ :=
    deliver_active (b := { b with computations := b.computations + 1 }) hq hc
  rw [run, hcompute]
  simp only [Bool.false_eq_true, if_false, List.append_nil]
  rw [run_eq_perform (by rw [hdeliver]), hdeliver]
  rfl

end Spot

section Calls

theorem drained_of_atRest {c : Call L K T P} (hrun : run hooks inlined b [.call c] = move hooks false b (.call c))
    (h : AtRest (move hooks false b (.call c)).binder) :
    Agree (step hooks inlined b (.call c)) (steps hooks (queued false) b (drained c)) := by
  rw [step_inlined, hrun]
  simp only [drained, serves, steps, step_call, step_requests_nil h.quiet h.requests,
    step_deliveries_nil h.quiet h.deliveries]
  refine ⟨rfl, ?_, by simp [Progress.followedBy]⟩
  simp only [told_followedBy]
  exact (List.append_nil _).symm

theorem drained_missed (h : AtRest b) (hv : vetoes hooks b.listener r = false)
    (hd : b.cache.peek? r.key = none) :
    Agree (step hooks inlined b (.call (.load r.key r.target r.params)))
        (steps hooks (queued false) b (drained (.load r.key r.target r.params))) ∧
      AtRest (step hooks inlined b (.call (.load r.key r.target r.params))).binder := by
  let b0 : Binder L K D T P := ⟨b.cache, false, b.listener, b.computations, [], [], []⟩
  let b1 : Binder L K D T P := ⟨b.cache, false, b.listener, b.computations, [hooks.prepared r], [], []⟩
  have hb0 : { b with canceled := false } = b0 := by
    simp only [h.requests, h.deliveries, h.quiet, b0]
  have hb1 : { b with canceled := false, requests := [hooks.prepared r] } = b1 := by
    simp only [h.deliveries, h.quiet, b1]
  rw [step_inlined, run_inlined_missed h.quiet hv hd, hb0, drained, steps, step_call, move_missed h.quiet hv hd,
    h.requests, List.nil_append, hb1]
  simp only
  cases hp : hooks.compute b.computations (hooks.prepared r).key (hooks.prepared r).params with
  | panic =>
    rw [run_inlined_panicked (b := b0) rfl hp, steps_serves_panicked hp]
    refine ⟨⟨rfl, ?_, rfl⟩, rfl, rfl, rfl⟩
    rw [told_before, told_followedBy]
    rfl
  | data data =>
    rw [run_inlined_computed (b := b0) rfl rfl hp, steps_serves_computed hp]
    refine ⟨⟨rfl, ?_, rfl⟩, rfl, rfl, rfl⟩
    rw [told_before, told_followedBy]
    exact congrArg (_ ++ ·) (told_served b.listener (hooks.prepared r) data).symm

theorem drained_call (hooks : Hooks L K D T P) (h : AtRest b) (c : Call L K T P) :
    Agree (step hooks inlined b (.call c)) (steps hooks (queued false) b (drained c)) ∧
      AtRest (step hooks inlined b (.call c)).binder := by
  have settled (hrun : run hooks inlined b [.call c] = move hooks false b (.call c))
      (hb : AtRest (move hooks false b (.call c)).binder) :
      Agree (step hooks inlined b (.call c)) (steps hooks (queued false) b (drained c)) ∧
        AtRest (step hooks inlined b (.call c)).binder := by
    refine ⟨drained_of_atRest hrun hb, ?_⟩
    rw [step_inlined, hrun]
    exact hb
  cases c with
  | load key target params =>
    let r : Request K T P := ⟨key, target, params⟩
    cases hv : vetoes hooks b.listener r with
    | true =>
      apply settled (run_inlined_load (r := r) h.quiet (.inl hv))
      rw [move_vetoed (r := r) h.quiet hv]
      exact ⟨h.quiet, h.requests, h.deliveries⟩
    | false =>
      cases hd : b.cache.peek? r.key with
      | none => exact drained_missed h hv hd
      | some d =>
        apply settled (run_inlined_load (r := r) h.quiet (.inr (by simp [hd])))
        rw [move_hit (r := r) h.quiet hv hd]
        exact ⟨h.quiet, h.requests, h.deliveries⟩
  | cancel =>
    have ht : (b.call .cancel : Progress L K D T P).tasks = [] := by
      rw [call, tell_eq (b := { b with canceled := true }) h.quiet]
      rfl
    apply settled (run_inlined_call ht)
    rw [move_cancel h.quiet]
    exact ⟨h.quiet, h.requests, h.deliveries⟩
  | clearCache =>
    apply settled (run_inlined_call rfl)
    rw [move_clearCache]
    exact ⟨h.quiet, h.requests, h.deliveries⟩
  | setListener listener =>
    apply settled (run_inlined_call rfl)
    rw [move_setListener]
    exact ⟨h.quiet, h.requests, h.deliveries⟩

end Calls

theorem steps_inlined (hooks : Hooks L K D T P) (cache : Cache K D) (calls : List (Call L K T P)) :
    Agree (steps hooks inlined (ofCache cache []) (calls.map .call))
        (steps hooks (queued false) (ofCache cache []) (calls.flatMap drained)) ∧
      AtRest (steps hooks inlined (ofCache cache []) (calls.map .call)).binder := by
  have hrun (b : Binder L K D T P) (h : AtRest b) :
      Agree (steps hooks inlined b (calls.map .call)) (steps hooks (queued false) b (calls.flatMap drained)) ∧
        AtRest (steps hooks inlined b (calls.map .call)).binder := by
    induction calls generalizing b with
    | nil => exact ⟨⟨rfl, rfl, rfl⟩, h⟩
    | cons c calls ih =>
      obtain ⟨hcall, hb⟩ := drained_call hooks h c
      obtain ⟨hcalls, hb'⟩ := ih _ hb
      rw [hcall.binder] at hcalls hb'
      rw [List.map_cons, List.flatMap_cons, steps, steps_append, hcall.binder]
      exact ⟨hcall.followedBy hcalls, hb'⟩
  exact hrun _ ⟨rfl, rfl, rfl⟩

end TabDeck.Binder
