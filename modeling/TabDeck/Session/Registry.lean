import TabDeck.Log.Record
import TabDeck.Session.Status
import TabDeck.Session.CommandLine
import TabDeck.Text.Basic
/-!
The registry of the sessions that a host has opened, in the order of their opening, and of the lock that keeps
the host awake. Whatever changes what the status says publishes it.
-/
namespace TabDeck.Session

open TabDeck.Log (Record)

structure Terminal where
  handle : String
  running : Bool
  pid : Option Int
  input : String
  deriving DecidableEq

inductive Event (X : Type) where
  | opened (handle : String) (p : Parameter)
  | openedX (x : X)
  | locked
  | unlocked
  | published (s : Status)
  | finished (session : Nat) (handle : String) (wasRunning : Bool)
  | typed (session : Nat) (handle text : String)
  | pid (session : Nat) (handle : String) (n : Int)
  | cleaned
  | note (r : Record)

/-- Sessions of terminals and of X displays: all that were ever opened, and the numbers of the listed ones. -/
structure Registry (X : Type) where
  opened : List Terminal
  listed : List Nat
  openedX : List X
  listedX : List Nat
  lockHeld : Bool

namespace Registry

variable {X : Type}

structure Turn (X R : Type) where
  registry : Registry X
  events : List (Event X)
  result : R

def Turn.map {R R' : Type} (t : Turn X R) (f : R → R') : Turn X R' := ⟨t.registry, t.events, f t.result⟩

def empty : Registry X := ⟨[], [], [], [], false⟩

def sessions (r : Registry X) : List Terminal := r.listed.filterMap (r.opened[·]?)

def xSessions (r : Registry X) : List X := r.listedX.filterMap (r.openedX[·]?)

def status (r : Registry X) : Status := ⟨r.listed.length, r.listedX.length, r.lockHeld⟩

def summary (r : Registry X) : String :=
  Text.summary "SessionRegistry" [("sessions", toString r.listed.length),
    ("x_sessions", toString r.listedX.length), ("lock_acquired", toString r.lockHeld)]

def clientSummary : String := Text.openSummary "SessionServiceClient" []

def publish (r : Registry X) : Event X := .published r.status

def hasHandle (r : Registry X) (handle : String) (session : Nat) : Bool :=
  r.opened[session]?.any fun t => t.handle == handle

def position? (r : Registry X) (handle : String) : Option Nat := r.listed.findIdx? (r.hasHandle handle)

def find? (r : Registry X) (handle : String) : Option Nat := r.listed.find? (r.hasHandle handle)

def modify (r : Registry X) (session : Nat) (f : Terminal → Terminal) : Registry X :=
  { r with opened := r.opened.modify session f }

section Terminals

def openNew (host : Nat → Parameter → String) (r : Registry X) (p : Parameter) : Turn X Nat :=
  let session := r.opened.length
  let handle := host session p
  let r' := { r with opened := r.opened ++ [⟨handle, true, none, ""⟩], listed := r.listed ++ [session] }
  ⟨r', [.note ⟨.debug, "creating new session", []⟩, .opened handle p, r'.publish], session⟩

def reuse (r : Registry X) (p : Parameter) (id : String) : Turn X (Except SessionError Nat) :=
  match Check.notEmpty id "session id must not be empty" with
  | .error e => ⟨r, [], .error (.argument e)⟩
  | .ok handle =>
    let note : Event X := .note ⟨.debug, "finding session by id", [("id", handle)]⟩
    match r.find? handle with
    | none => ⟨r, [note], .error (.notFound handle)⟩
    | some session =>
      match p.command with
      | none => ⟨r, [note, r.publish], .ok session⟩
      | some command =>
        let text := command ++ "\n"
        ⟨r.modify session fun t => { t with input := t.input ++ text },
          [note, .typed session handle text, r.publish], .ok session⟩

def create (host : Nat → Parameter → String) (r : Registry X) (p : Parameter) :
    Turn X (Except SessionError Nat) :=
  match p.id with
  | none =>
    let t := r.openNew host p
    ⟨t.registry, t.events, .ok t.result⟩
  | some id => r.reuse p id

def remove (r : Registry X) (handle : String) : Turn X (Option Nat) :=
  match r.position? handle with
  | none => ⟨r, [], none⟩
  | some i =>
    let r' := { r with listed := r.listed.eraseIdx i }
    let note := ⟨.debug, "session removed", [("handle", handle), ("index", toString i)]⟩
    ⟨r', [.note note, r'.publish], some i⟩

def finish (r : Registry X) (session : Nat) : Turn X Unit :=
  match r.opened[session]? with
  | none => ⟨r, [], ()⟩
  | some t =>
    ⟨r.modify session fun t => { t with running := false }, [.finished session t.handle t.running], ()⟩

def finishAll (r : Registry X) : List Nat → Turn X Unit
  | [] => ⟨r, [], ()⟩
  | session :: rest =>
    let first := r.finish session
    let others := first.registry.finishAll rest
    ⟨others.registry, first.events ++ others.events, ()⟩

def stopAll (r : Registry X) : Turn X Unit :=
  let t := r.finishAll r.listed
  let note := ⟨.info, "all sessions stopped", [("count", toString r.listed.length)]⟩
  ⟨t.registry, t.events ++ [.note note], ()⟩

def setPid (r : Registry X) (handle : String) (pid : Int) : Turn X Bool :=
  let fields := [("handle", handle), ("pid", toString pid)]
  match r.find? handle with
  | some session =>
    ⟨r.modify session fun t => { t with pid := some pid },
      [.pid session handle pid, .note ⟨.trace, "shell pid recorded", fields⟩], true⟩
  | none => ⟨r, [.note ⟨.debug, "pid reported for unknown session", fields⟩], false⟩

/-- Closes a tab: its session, if it has one, is finished and removed from the registry, if there is one. -/
def closeTab (r : Registry X) (session : Option Nat) (registered : Bool) : Turn X (Option Nat) :=
  match session.bind fun n => (r.opened[n]?.map fun t => (n, t.handle)) with
  | none => ⟨r, [.cleaned], none⟩
  | some (n, handle) =>
    let finished := r.finish n
    if registered then
      let removed := finished.registry.remove handle
      ⟨removed.registry, finished.events ++ removed.events ++ [.cleaned], removed.result⟩
    else ⟨finished.registry, finished.events ++ [.cleaned], none⟩

end Terminals

section Displays

def createX (r : Registry X) (x : X) : Turn X Nat :=
  let session := r.openedX.length
  let r' := { r with openedX := r.openedX ++ [x], listedX := r.listedX ++ [session] }
  let note := ⟨.debug, "X session created", [("count", toString r'.listedX.length)]⟩
  ⟨r', [.openedX x, .note note, r'.publish], session⟩

def removeX (r : Registry X) (session : Nat) : Turn X (Option Nat) :=
  match r.listedX.findIdx? (· == session) with
  | none => ⟨r, [], none⟩
  | some i =>
    let r' := { r with listedX := r.listedX.eraseIdx i }
    ⟨r', [.note ⟨.debug, "X session removed", [("index", toString i)]⟩, r'.publish], some i⟩

def closeX (r : Registry X) (session : Option Nat) (registered : Bool) : Turn X (Option Nat) :=
  match session with
  | some n => if registered then r.removeX n else ⟨r, [], none⟩
  | none => ⟨r, [], none⟩

end Displays

section Lock

def acquireLock (r : Registry X) : Turn X Unit :=
  if r.lockHeld then ⟨r, [], ()⟩
  else
    let r' := { r with lockHeld := true }
    ⟨r', [.locked, .note ⟨.debug, "wake lock acquired", []⟩, r'.publish], ()⟩

def releaseLock (r : Registry X) : Turn X Unit :=
  if r.lockHeld then
    let r' := { r with lockHeld := false }
    ⟨r', [.unlocked, .note ⟨.debug, "wake lock released", []⟩, r'.publish], ()⟩
  else ⟨r, [], ()⟩

def shutdown (r : Registry X) : Turn X Unit :=
  let stopped := r.stopAll
  let r' := { stopped.registry with listed := [] }
  if r.lockHeld then
    let released := r'.releaseLock
    { released with events := stopped.events ++ released.events }
  else ⟨r', stopped.events ++ if r.listed.isEmpty then [] else [r'.publish], ()⟩

def act (r : Registry X) : Action → Turn X Unit
  | .stop => r.shutdown
  | .acquireLock => r.acquireLock
  | .releaseLock => r.releaseLock

end Lock

inductive Op (X : Type) where
  | create (p : Parameter)
  | remove (handle : String)
  | setPid (handle : String) (pid : Int)
  | closeTab (session : Option Nat) (registered : Bool)
  | createX (x : X)
  | removeX (session : Nat)
  | closeX (session : Option Nat) (registered : Bool)
  | stopAll
  | shutdown
  | acquireLock
  | releaseLock
  | act (a : Action)

inductive Answer where
  | done
  | session (s : Except SessionError Nat)
  | number (n : Nat)
  | position (i : Option Nat)
  | flag (b : Bool)

def step (host : Nat → Parameter → String) (r : Registry X) : Op X → Turn X Answer
  | .create p => (r.create host p).map .session
  | .remove handle => (r.remove handle).map .position
  | .setPid handle pid => (r.setPid handle pid).map .flag
  | .closeTab session registered => (r.closeTab session registered).map .position
  | .createX x => (r.createX x).map .number
  | .removeX session => (r.removeX session).map .position
  | .closeX session registered => (r.closeX session registered).map .position
  | .stopAll => r.stopAll.map fun _ => .done
  | .shutdown => r.shutdown.map fun _ => .done
  | .acquireLock => r.acquireLock.map fun _ => .done
  | .releaseLock => r.releaseLock.map fun _ => .done
  | .act a => (r.act a).map fun _ => .done

end Registry

end TabDeck.Session
