import TabDeck.Check.Argument
import TabDeck.Log.Record
import TabDeck.Text.Quoted

namespace TabDeck.Session

structure Status where
  sessions : Nat
  xSessions : Nat
  lockHeld : Bool
  deriving DecidableEq

namespace Status

def zero : Status := ⟨0, 0, false⟩

def text (s : Status) : String :=
  toString s.sessions ++ " sessions, " ++ toString s.xSessions ++ " X sessions" ++
    if s.lockHeld then " (wake lock held)" else ""

end Status

inductive Action where
  | stop
  | acquireLock
  | releaseLock
  deriving DecidableEq

namespace Action

def name : Action → String
  | .stop => "Stop"
  | .acquireLock => "AcquireLock"
  | .releaseLock => "ReleaseLock"

def text : Action → String
  | .stop => "com.thertxnetwork.andrinux.action.service.stop"
  | .acquireLock => "com.thertxnetwork.andrinux.action.service.lock.acquire"
  | .releaseLock => "com.thertxnetwork.andrinux.action.service.lock.release"

def parse (s : String) : Except IllegalArgument Action :=
  match [stop, acquireLock, releaseLock].find? (·.text == s) with
  | some a => .ok a
  | none => .error ⟨"unknown service action " ++ Text.quoted s⟩

def toggleLock (held : Bool) : Action := if held then .releaseLock else .acquireLock

end Action

inductive SessionError where
  | notFound (handle : String)
  | argument (e : IllegalArgument)

namespace SessionError

def message : SessionError → String
  | .notFound handle => "cannot find session by id " ++ Text.quoted handle
  | .argument e => e.message

def failure : SessionError → Failure
  | .notFound handle => .plain (SessionError.notFound handle).message
  | .argument e => .because e.message (.plain e.message)

end SessionError

end TabDeck.Session
