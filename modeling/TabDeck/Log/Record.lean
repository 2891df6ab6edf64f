namespace TabDeck

structure Failure where
  message : String
  causes : List String

namespace Failure

def plain (message : String) : Failure := ⟨message, []⟩

def because (message : String) (cause : Failure) : Failure := ⟨message, cause.message :: cause.causes⟩

def hasCause (f : Failure) : Bool := !f.causes.isEmpty

def report (f : Failure) : String :=
  f.message ++ String.join (f.causes.map ("\nCaused by: " ++ ·))

end Failure

end TabDeck

namespace TabDeck.Log

inductive Severity where
  | trace
  | debug
  | info
  | warn
  | error
  deriving DecidableEq

def Severity.name : Severity → String
  | .trace => "TRACE"
  | .debug => "DEBUG"
  | .info => "INFO"
  | .warn => "WARN"
  | .error => "ERROR"

structure Record where
  severity : Severity
  message : String
  fields : List (String × String)
  deriving DecidableEq

end TabDeck.Log
