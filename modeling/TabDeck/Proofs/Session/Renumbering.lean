import Mathlib.Data.List.InsertIdx
import TabDeck.Proofs.Session.Course
/-!
Registries whose host has opened other sessions before theirs, which only moves the numbers.
-/
namespace TabDeck.Session

variable {X : Type}

def Event.shift (k : Nat) : Event X → Event X
  | .finished session handle wasRunning => .finished (k + session) handle wasRunning
  | .typed session handle text => .typed (k + session) handle text
  | .pid session handle n => .pid (k + session) handle n
  | ev => ev

namespace Registry

section Shift

variable (k : Nat)

def Op.shift : Op X → Op X
  | .closeTab tab registered => .closeTab (tab.map (k + ·)) registered
  | op => op

def Answer.shift : Answer → Answer
  | .session s => .session (s.map (k + ·))
  | answer => answer

end Shift

/-- The registry beside sessions that were opened before its own and that it does not list. -/
def beside (former : List Terminal) (r : Registry X) : Registry X :=
  { r with opened := former ++ r.opened, listed := r.listed.map (former.length + ·) }

def Turn.beside {R : Type} (former : List Terminal) (f : R → R) (t : Turn X R) : Turn X R :=
  ⟨t.registry.beside former, t.events.map (.shift former.length), f t.result⟩

variable {former : List Terminal} {r : Registry X}

section Lookup

theorem listed_beside : (r.beside former).listed = r.listed.map (former.length + ·) := rfl

theorem lockHeld_beside : (r.beside former).lockHeld = r.lockHeld := rfl

theorem opened_beside (n : Nat) : (r.beside former).opened[former.length + n]? = r.opened[n]? := by
  rw [beside, List.getElem?_append_right (Nat.le_add_right ..), Nat.add_sub_cancel_left]

theorem status_beside : (r.beside former).status = r.status := by
  simp only [Registry.status, beside, List.length_map]

theorem modify_append_right (l : List Terminal) (n : Nat) (f : Terminal → Terminal) :
    (former ++ l).modify (former.length + n) f = former ++ l.modify n f := by
  induction former with
  | nil => rw [List.length_nil, Nat.zero_add, List.nil_append, List.nil_append]
  | cons t former ih =>
    rw [List.length_cons, Nat.succ_add, List.cons_append, List.modify_succ_cons, ih]
    rfl

theorem modify_beside (session : Nat) (f : Terminal → Terminal) :
    (r.beside former).modify (former.length + session) f = (r.modify session f).beside former :=
  congrArg (fun opened => { r.beside former with opened }) (modify_append_right r.opened session f)

theorem hasHandle_beside (handle : String) (n : Nat) :
    (r.beside former).hasHandle handle (former.length + n) = r.hasHandle handle n := by
  rw [hasHandle, opened_beside, hasHandle]

theorem position?_beside (handle : String) : (r.beside former).position? handle = r.position? handle := by
  rw [position?, listed_beside, List.findIdx?_map]
  exact congrArg (List.findIdx? · r.listed) (funext (hasHandle_beside handle))

theorem find?_beside (handle : String) :
    (r.beside former).find? handle = (r.find? handle).map (former.length + ·) := by
  rw [find?, listed_beside, List.find?_map]
  exact congrArg (Option.map _ <| List.find? · r.listed) (funext (hasHandle_beside handle))

end Lookup

section Calls

variable (host : Nat → Parameter → String)

theorem openNew_beside (p : Parameter) : (r.beside former).openNew host p =
    (r.openNew (fun n => host (former.length + n)) p).beside former (former.length + ·) := by
  simp [openNew, Turn.beside, beside, Event.shift, publish, Registry.status]

theorem reuse_beside (p : Parameter) (id : String) :
    (r.beside former).reuse p id = (r.reuse p id).beside former (Except.map (former.length + ·)) := by
  rw [reuse, reuse]
  cases Check.notEmpty id "session id must not be empty" with
  | error e => rfl
  | ok handle =>
    simp only [find?_beside]
    cases r.find? handle with
    | none => rfl
    | some session =>
      cases p.command with
      | none => simp [Turn.beside, Event.shift, publish, status_beside, Except.map]
      | some command => simp [Turn.beside, Event.shift, publish, status_beside, Except.map, modify_beside]

theorem create_beside (p : Parameter) : (r.beside former).create host p =
    (r.create (fun n => host (former.length + n)) p).beside former (Except.map (former.length + ·)) := by
  rw [create, create]
  cases p.id with
  | none => simp only [openNew_beside, Turn.beside, Except.map]
  | some id => exact reuse_beside p id

theorem remove_beside (handle : String) : (r.beside former).remove handle = (r.remove handle).beside former id := by
  rw [remove, remove, position?_beside]
  cases r.position? handle with
  | none => rfl
  | some i =>
    simp [Turn.beside, Event.shift, publish, Registry.status, beside, List.eraseIdx_map, List.length_eraseIdx]

theorem setPid_beside (handle : String) (pid : Int) :
    (r.beside former).setPid handle pid = (r.setPid handle pid).beside former id := by
  rw [setPid, setPid, find?_beside]
  cases r.find? handle with
  | none => rfl
  | some session => simp [Turn.beside, Event.shift, modify_beside]

theorem finish_beside (session : Nat) :
    (r.beside former).finish (former.length + session) = (r.finish session).beside former id := by
  rw [finish, finish, opened_beside]
  cases r.opened[session]? with
  | none => rfl
  | some t => simp [Turn.beside, Event.shift, modify_beside]

theorem finishAll_beside (sessions : List Nat) :
    (r.beside former).finishAll (sessions.map (former.length + ·)) = (r.finishAll sessions).beside former id := by
  induction sessions generalizing r with
  | nil => rfl
  | cons session rest ih =>
    simp only [List.map_cons, finishAll, finish_beside, Turn.beside, ih, List.map_append]

theorem stopAll_beside : (r.beside former).stopAll = r.stopAll.beside former id := by
  have hfinish : (r.beside former).finishAll (r.beside former).listed = (r.finishAll r.listed).beside former id :=
    finishAll_beside r.listed
  rw [stopAll, stopAll, hfinish]
  simp [Turn.beside, Event.shift, beside]

theorem closeTab_beside (tab : Option Nat) (registered : Bool) :
    (r.beside former).closeTab (tab.map (former.length + ·)) registered =
      (r.closeTab tab registered).beside former id := by
  cases tab with
  | none => rfl
  | some n =>
    rw [closeTab, closeTab]
    simp only [Option.map_some, Option.bind_some, opened_beside]
    cases r.opened[n]? with
    | none => rfl
    | some t =>
      simp only [Option.map_some, finish_beside, Turn.beside, remove_beside]
      cases registered <;> simp [Event.shift]

theorem createX_beside (x : X) : (r.beside former).createX x = (r.createX x).beside former id := by
  simp [createX, Turn.beside, beside, Event.shift, publish, Registry.status]

theorem removeX_beside (session : Nat) :
    (r.beside former).removeX session = (r.removeX session).beside former id := by
  have hlistedX : (r.beside former).listedX = r.listedX := rfl
  rw [removeX, removeX, hlistedX]
  cases r.listedX.findIdx? (· == session) with
  | none => rfl
  | some i => simp [Turn.beside, beside, Event.shift, publish, Registry.status]

theorem closeX_beside (session : Option Nat) (registered : Bool) :
    (r.beside former).closeX session registered = (r.closeX session registered).beside former id := by
  match session, registered with
  | none, _ => rfl
  | some session, false => rfl
  | some session, true => exact removeX_beside session

theorem acquireLock_beside : (r.beside former).acquireLock = r.acquireLock.beside former id := by
  rw [acquireLock, acquireLock, lockHeld_beside]
  cases r.lockHeld <;> simp [Turn.beside, beside, Event.shift, publish, Registry.status]

theorem releaseLock_beside : (r.beside former).releaseLock = r.releaseLock.beside former id := by
  rw [releaseLock, releaseLock, lockHeld_beside]
  cases r.lockHeld <;> simp [Turn.beside, beside, Event.shift, publish, Registry.status]

theorem emptied_beside : (r.beside former).emptied = r.emptied.beside former := by
  have hstopped : (r.beside former).stoppedAll = r.stoppedAll.beside former :=
    congrArg Turn.registry (finishAll_beside r.listed)
  rw [emptied, hstopped]
  rfl

theorem shutdown_beside : (r.beside former).shutdown = r.shutdown.beside former id := by
  have hlisted : (r.beside former).listed.isEmpty = r.listed.isEmpty := List.isEmpty_map
  rw [shutdown_eq, shutdown_eq, stopAll_beside, emptied_beside, farewell, farewell, lockHeld_beside, hlisted,
    emptied_beside]
  simp only [Turn.beside, List.map_append, publish, status_beside]
  cases r.lockHeld <;> cases r.listed.isEmpty <;> rfl

end Calls

section Steps

variable (host : Nat → Parameter → String)

theorem map_beside {R : Type} {f : R → R} (answer : R → Answer)
    (hanswer : ∀ x, answer (f x) = (answer x).shift former.length) {t t' : Turn X R} (h : t = t'.beside former f) :
    t.map answer = (t'.map answer).beside former (Answer.shift former.length) := by
  rw [h, Turn.map, Turn.beside, hanswer]
  rfl

theorem step_beside (op : Op X) : (r.beside former).step host (op.shift former.length) =
    (r.step (fun n => host (former.length + n)) op).beside former (Answer.shift former.length) := by
  cases op with
  | create p => exact map_beside .session (fun _ => rfl) (create_beside host p)
  | remove handle => exact map_beside .position (fun _ => rfl) (remove_beside handle)
  | setPid handle pid => exact map_beside .flag (fun _ => rfl) (setPid_beside handle pid)
  | closeTab tab registered => exact map_beside .position (fun _ => rfl) (closeTab_beside tab registered)
  | createX x => exact map_beside .number (fun _ => rfl) (createX_beside x)
  | removeX session => exact map_beside .position (fun _ => rfl) (removeX_beside session)
  | closeX session registered => exact map_beside .position (fun _ => rfl) (closeX_beside session registered)
  | stopAll => exact map_beside (fun _ => .done) (fun _ => rfl) stopAll_beside
  | shutdown => exact map_beside (fun _ => .done) (fun _ => rfl) shutdown_beside
  | acquireLock => exact map_beside (fun _ => .done) (fun _ => rfl) acquireLock_beside
  | releaseLock => exact map_beside (fun _ => .done) (fun _ => rfl) releaseLock_beside
  | act a =>
    cases a with
    | stop => exact map_beside (fun _ => .done) (fun _ => rfl) shutdown_beside
    | acquireLock => exact map_beside (fun _ => .done) (fun _ => rfl) acquireLock_beside
    | releaseLock => exact map_beside (fun _ => .done) (fun _ => rfl) releaseLock_beside

theorem run_beside (ops : List (Op X)) : (r.beside former).run host (ops.map (.shift former.length)) =
    (r.run (fun n => host (former.length + n)) ops).beside former (List.map (.shift former.length)) := by
  induction ops generalizing r with
  | nil => rfl
  | cons op ops ih => simp only [List.map_cons, run, step_beside, Turn.beside, ih, List.map_append]

end Steps

end Registry

end TabDeck.Session
