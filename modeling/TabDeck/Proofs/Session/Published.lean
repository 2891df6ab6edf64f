import Mathlib.Data.List.Induction
import TabDeck.Proofs.Session.Step

namespace TabDeck.Session

variable {X : Type}

def Event.status? : Event X → Option Status
  | .published s => some s
  | _ => none

def published (events : List (Event X)) : List Status := events.filterMap Event.status?

theorem published_append (l r : List (Event X)) : published (l ++ r) = published l ++ published r :=
  List.filterMap_append

namespace Registry

/-- What an operation has to do for the host to be told the status. -/
inductive Told (r : Registry X) (op : Op X) (t : Turn X Answer) : Prop where
  | created (session : Nat) (h : t.registry.listed = r.listed ++ [session])
  | createdX (session : Nat) (h : t.registry.listedX = r.listedX ++ [session])
  | reused (p : Parameter) (id : String) (session : Nat) (hop : op = .create p) (hid : p.id = some id)
      (h : t.result = .session (.ok session))
  | removed (i : Nat) (hi : i < r.listed.length) (h : t.registry.listed = r.listed.eraseIdx i)
  | removedX (i : Nat) (hi : i < r.listedX.length) (h : t.registry.listedX = r.listedX.eraseIdx i)
  | relocked (h : t.registry.lockHeld ≠ r.lockHeld)
  | emptied (hop : op = .shutdown ∨ op = .act .stop) (h : r.listed ≠ []) (h' : t.registry.listed = [])

structure Quiet {R : Type} (r : Registry X) (t : Turn X R) : Prop where
  steady : r.Steady t.registry
  published : published t.events = []

def Announced {R : Type} (t : Turn X R) : Prop := published t.events = [t.registry.status]

section Calls

variable {r : Registry X} {R R' : Type}

theorem Quiet.map {t : Turn X R} (h : r.Quiet t) (f : R → R') : r.Quiet (t.map f) := ⟨h.steady, h.published⟩

theorem Quiet.not_told {op : Op X} {t : Turn X Answer} (h : r.Quiet t)
    (hr : ∀ p id session, op = .create p → p.id = some id → t.result ≠ .session (.ok session)) : ¬ r.Told op t := by
  have hlisted := h.steady.listed
  have hlistedX := h.steady.listedX
  intro ht
  cases ht with
  | created session h' => simpa using hlisted.symm.trans h'
  | createdX session h' => simpa using hlistedX.symm.trans h'
  | reused p id session hop hid h' => exact hr p id session hop hid h'
  | removed i hi h' =>
    have hlen := congrArg List.length (hlisted.symm.trans h')
    rw [List.length_eraseIdx_of_lt hi] at hlen
    omega
  | removedX i hi h' =>
    have hlen := congrArg List.length (hlistedX.symm.trans h')
    rw [List.length_eraseIdx_of_lt hi] at hlen
    omega
  | relocked h' => exact h' h.steady.lockHeld
  | emptied hop h' hempty => exact h' (hlisted.symm.trans hempty)

theorem published_finish (session : Nat) : published (r.finish session).events = [] := by
  rw [finish]
  cases r.opened[session]? <;> rfl

theorem published_finishAll (sessions : List Nat) : published (r.finishAll sessions).events = [] := by
  induction sessions generalizing r with
  | nil => rfl
  | cons session rest ih => rw [finishAll, published_append, published_finish, ih, List.append_nil]

theorem published_stopAll : published r.stopAll.events = [] := by
  rw [stopAll, published_append, published_finishAll]
  rfl

theorem quiet_stopAll : r.Quiet r.stopAll := ⟨steady_stopAll r, published_stopAll⟩

theorem quiet_setPid (handle : String) (pid : Int) : r.Quiet (r.setPid handle pid) := by
  rw [setPid]
  cases r.find? handle with
  | none => exact ⟨.refl r, rfl⟩
  | some session => exact ⟨steady_modify .., rfl⟩

theorem remove_unknown {handle : String} (h : r.position? handle = none) : r.remove handle = ⟨r, [], none⟩ := by
  rw [remove, h]

theorem remove_found {handle : String} {i : Nat} (h : r.position? handle = some i) :
    (r.remove handle).registry = { r with listed := r.listed.eraseIdx i } ∧ Announced (r.remove handle) := by
  rw [remove, h]
  exact ⟨rfl, rfl⟩

theorem removeX_unknown {session : Nat} (h : r.listedX.findIdx? (· == session) = none) :
    r.removeX session = ⟨r, [], none⟩ := by
  rw [removeX, h]

theorem removeX_found {session i : Nat} (h : r.listedX.findIdx? (· == session) = some i) :
    (r.removeX session).registry = { r with listedX := r.listedX.eraseIdx i } ∧ Announced (r.removeX session) := by
  rw [removeX, h]
  exact ⟨rfl, rfl⟩

def Reported (r : Registry X) (op : Op X) (t : Turn X Answer) : Prop :=
  r.Told op t ∧ Announced t ∨ ¬ r.Told op t ∧ r.Quiet t

theorem Quiet.reported {op : Op X} {t : Turn X Answer} (h : r.Quiet t) (hop : ∀ p, op ≠ .create p) :
    r.Reported op t :=
  .inr ⟨h.not_told fun p _ _ he => absurd he (hop p), h⟩

theorem reported_reuse {p : Parameter} {id : String} (hid : p.id = some id) :
    r.Reported (.create p) ((r.reuse p id).map .session) := by
  have hfail {t : Turn X (Except SessionError Nat)} {e : SessionError} (hq : r.Quiet t) (he : t.result = .error e) :
      r.Reported (.create p) (t.map .session) := by
    refine .inr ⟨(hq.map _).not_told fun _ _ session _ _ h => ?_, hq.map _⟩
    cases he.symm.trans (Answer.session.inj h)
  rw [reuse]
  cases Check.notEmpty id "session id must not be empty" with
  | error e => exact hfail ⟨.refl r, rfl⟩ rfl
  | ok handle =>
    simp only
    cases r.find? handle with
    | none => exact hfail ⟨.refl r, rfl⟩ rfl
    | some session =>
      cases p.command with
      | none => exact .inl ⟨.reused p id session rfl hid rfl, rfl⟩
      | some command => exact .inl ⟨.reused p id session rfl hid rfl, rfl⟩

theorem reported_remove (op : Op X) (hop : ∀ p, op ≠ .create p) (handle : String) :
    r.Reported op ((r.remove handle).map .position) := by
  cases h : r.position? handle with
  | none =>
    rw [remove_unknown h]
    exact Quiet.reported ⟨.refl r, rfl⟩ hop
  | some i =>
    obtain ⟨hr, hp⟩ := remove_found h
    exact .inl ⟨.removed i (position?_lt h) (congrArg listed hr), hp⟩

theorem reported_removeX (op : Op X) (hop : ∀ p, op ≠ .create p) (session : Nat) :
    r.Reported op ((r.removeX session).map .position) := by
  cases h : r.listedX.findIdx? (· == session) with
  | none =>
    rw [removeX_unknown h]
    exact Quiet.reported ⟨.refl r, rfl⟩ hop
  | some i =>
    obtain ⟨hr, hp⟩ := removeX_found h
    exact .inl ⟨.removedX i (List.findIdx?_eq_some_iff_getElem.mp h).1 (congrArg listedX hr), hp⟩

theorem reported_closeTab (session : Option Nat) (registered : Bool) :
    r.Reported (.closeTab session registered) ((r.closeTab session registered).map .position) := by
  rw [closeTab]
  cases session.bind fun n => r.opened[n]?.map fun t => (n, t.handle) with
  | none => exact Quiet.reported ⟨.refl r, rfl⟩ fun _ => nofun
  | some tab =>
    obtain ⟨n, handle⟩ := tab
    have hsteady := steady_finish r n
    cases registered with
    | false =>
      refine Quiet.reported ⟨hsteady, ?_⟩ fun _ => nofun
      exact (published_append ..).trans (by rw [published_finish]; rfl)
    | true =>
      have hpub (events : List (Event X)) :
          published ((r.finish n).events ++ events ++ [.cleaned]) = published events := by
        rw [published_append, published_append, published_finish, List.nil_append]
        exact List.append_nil _
      -- the session is finished first, which leaves the list of sessions as it was
      simp only [if_true]
      cases h : (r.finish n).registry.position? handle with
      | none =>
        rw [remove_unknown h]
        exact Quiet.reported ⟨hsteady, hpub []⟩ fun _ => nofun
      | some i =>
        obtain ⟨hr, hp⟩ := remove_found h
        have hlisted := congrArg listed hr
        have hi := position?_lt h
        simp only [hsteady.listed] at hlisted hi
        exact .inl ⟨.removed i hi hlisted, (hpub _).trans hp⟩

theorem reported_shutdown (op : Op X) (hop : op = .shutdown ∨ op = .act .stop) :
    r.Reported op (r.shutdown.map fun _ => .done) := by
  have hcreate (p : Parameter) : op ≠ .create p := by
    rcases hop with rfl | rfl <;> nofun
  obtain ⟨hlisted, hopenedX, hlistedX, hlock⟩ := steady_stopAll r
  have hpub (events : List (Event X)) : published (r.stopAll.events ++ events) = published events := by
    rw [published_append, published_stopAll, List.nil_append]
  rw [shutdown]
  by_cases h : r.lockHeld = true
  · have hheld : ({ r.stopAll.registry with listed := [] } : Registry X).lockHeld = true := hlock.trans h
    rw [if_pos h, releaseLock, if_pos hheld]
    exact .inl ⟨.relocked fun he => Bool.false_ne_true (he.trans h), hpub _⟩
  · rw [if_neg h]
    cases hempty : r.listed with
    | nil => exact Quiet.reported ⟨⟨hempty.symm, hopenedX, hlistedX, hlock⟩, hpub []⟩ hcreate
    | cons session rest =>
      have hne : r.listed ≠ [] := by rw [hempty]; nofun
      exact .inl ⟨.emptied hop hne rfl, hpub _⟩

theorem reported_acquireLock (op : Op X) (hop : ∀ p, op ≠ .create p) :
    r.Reported op (r.acquireLock.map fun _ => .done) := by
  rw [acquireLock]
  by_cases h : r.lockHeld = true
  · rw [if_pos h]
    exact Quiet.reported ⟨.refl r, rfl⟩ hop
  · rw [if_neg h]
    exact .inl ⟨.relocked fun he => h he.symm, rfl⟩

theorem reported_releaseLock (op : Op X) (hop : ∀ p, op ≠ .create p) :
    r.Reported op (r.releaseLock.map fun _ => .done) := by
  rw [releaseLock]
  by_cases h : r.lockHeld = true
  · rw [if_pos h]
    exact .inl ⟨.relocked fun he => Bool.false_ne_true (he.trans h), rfl⟩
  · rw [if_neg h]
    exact Quiet.reported ⟨.refl r, rfl⟩ hop

end Calls

theorem step_reported (host : Nat → Parameter → String) (r : Registry X) (op : Op X) :
    r.Reported op (r.step host op) := by
  cases op with
  | create p =>
    rw [step, create]
    cases hid : p.id with
    | none => exact .inl ⟨.created _ rfl, rfl⟩
    | some id => exact reported_reuse hid
  | remove handle => exact reported_remove (.remove handle) (fun _ => nofun) handle
  | setPid handle pid => exact Quiet.reported ((quiet_setPid handle pid).map _) fun _ => nofun
  | closeTab session registered => exact reported_closeTab session registered
  | createX x => exact .inl ⟨.createdX _ rfl, rfl⟩
  | removeX session => exact reported_removeX (.removeX session) (fun _ => nofun) session
  | closeX session registered =>
    match session, registered with
    | none, _ => exact Quiet.reported ⟨.refl r, rfl⟩ fun _ => nofun
    | some session, false => exact Quiet.reported ⟨.refl r, rfl⟩ fun _ => nofun
    | some session, true => exact reported_removeX (.closeX (some session) true) (fun _ => nofun) session
  | stopAll => exact Quiet.reported (quiet_stopAll.map fun _ => Answer.done) fun _ => nofun
  | shutdown => exact reported_shutdown _ (.inl rfl)
  | acquireLock => exact reported_acquireLock .acquireLock fun _ => nofun
  | releaseLock => exact reported_releaseLock .releaseLock fun _ => nofun
  | act a =>
    cases a with
    | stop => exact reported_shutdown _ (.inr rfl)
    | acquireLock => exact reported_acquireLock (.act .acquireLock) fun _ => nofun
    | releaseLock => exact reported_releaseLock (.act .releaseLock) fun _ => nofun

theorem run_latest (host : Nat → Parameter → String) (ops : List (Op X)) :
    let t := empty.run host ops
    (published t.events).getLast? = some t.registry.status ∨ published t.events = [] ∧ t.registry.status = .zero := by
  induction ops using List.reverseRecOn with
  | nil => exact .inr ⟨rfl, rfl⟩
  | append_singleton ops op ih =>
    rw [run_concat]
    simp only [published_append]
    rcases step_reported host (empty.run host ops).registry op with ⟨-, hp⟩ | ⟨-, hq⟩
    · left
      rw [hp, List.getLast?_concat]
    · rw [hq.published, List.append_nil, hq.steady.status]
      exact ih

theorem run_published (host : Nat → Parameter → String) (ops : List (Op X)) (op : Op X) :
    let past := empty.run host ops
    let t := past.registry.step host op
    ((published past.events).getLast? = some past.registry.status ∨
      published past.events = [] ∧ past.registry.status = .zero) ∧
    (past.registry.Told op t ∧ published t.events = [t.registry.status] ∨
      ¬ past.registry.Told op t ∧ published t.events = []) := by
  refine ⟨run_latest host ops, ?_⟩
  rcases step_reported host (empty.run host ops).registry op with ⟨ht, hp⟩ | ⟨ht, hq⟩
  · exact .inl ⟨ht, hp⟩
  · exact .inr ⟨ht, hq.published⟩

end Registry

end TabDeck.Session
