import TabDeck.Check.Argument
import TabDeck.Log.Record
import TabDeck.Text.Basic

namespace TabDeck.Log

inductive Level where
  | all
  | verbose
  | debug
  | info
  | warn
  | error
  | off
  deriving DecidableEq

namespace Level

def values : List Level := [.all, .verbose, .debug, .info, .warn, .error, .off]

def priority : Level → Nat
  | .all => 0
  | .verbose => 1
  | .debug => 2
  | .info => 3
  | .warn => 4
  | .error => 5
  | .off => 6

def isEnabled (l level : Level) : Bool := l.priority ≤ level.priority

def name : Level → String
  | .all => "all"
  | .verbose => "verbose"
  | .debug => "debug"
  | .info => "info"
  | .warn => "warn"
  | .error => "error"
  | .off => "off"

def directive : Level → String
  | .all => "trace"
  | .verbose => "trace"
  | l => l.name

def ofName? (text : String) : Option Level :=
  match (Text.trim text).toLower with
  | "all" => some .all
  | "verbose" => some .verbose
  | "trace" => some .verbose
  | "debug" => some .debug
  | "info" => some .info
  | "warn" => some .warn
  | "warning" => some .warn
  | "error" => some .error
  | "off" => some .off
  | "none" => some .off
  | _ => none

def ofSetting (setting : Option String) : Level := (setting.bind ofName?).getD .info

end Level

structure UnknownLevel where
  text : String

def UnknownLevel.message (e : UnknownLevel) : String := "unknown log level: " ++ e.text

def Level.parse (text : String) : Except UnknownLevel Level :=
  match ofName? text with
  | some l => .ok l
  | none => .error ⟨text⟩

def Severity.level : Severity → Level
  | .trace => .verbose
  | .debug => .debug
  | .info => .info
  | .warn => .warn
  | .error => .error

structure Logger where
  tag : String
  level : Level
  deriving DecidableEq

namespace Logger

def ofTag (tag : String) (level : Level) : Except IllegalArgument Logger := do
  return ⟨← Check.notEmpty tag "The tag may not be empty", level⟩

def write (l : Logger) (s : Severity) (message : String) : List Record :=
  if l.level.isEnabled s.level then [⟨s, message, [("tag", l.tag)]⟩] else []

def writeFailure (l : Logger) (message : String) (f : Failure) : List Record :=
  if l.level.isEnabled .error then [⟨.error, message, [("tag", l.tag), ("error", f.report)]⟩] else []

end Logger

end TabDeck.Log
