import TabDeck.Json.Value

namespace TabDeck.Json

variable {α β : Type}

def asInteger? (low high : Int) : Json → Option Int
  | .int n => if low ≤ n && n ≤ high then some n else none
  | _ => none

def asWord? (bits : Nat) : Json → Option Int := asInteger? 0 (Int.pow 2 bits - 1)

def asSigned? (bits : Nat) : Json → Option Int := asInteger? (-Int.pow 2 (bits - 1)) (Int.pow 2 (bits - 1) - 1)

def asFloat? : Json → Option Float
  | .int n => some (if n < 0 then -n.natAbs.toUInt64.toFloat else n.natAbs.toUInt64.toFloat)
  | .float x => some x
  | _ => none

def asFloat32? : Json → Option Float32
  | .int n => some (if n < 0 then -n.natAbs.toUInt64.toFloat32 else n.natAbs.toUInt64.toFloat32)
  | .float x => some x.toFloat32
  | _ => none

def asBool? : Json → Option Bool
  | .bool b => some b
  | _ => none

def asString? : Json → Option String
  | .str s => some s
  | _ => none

def asChar? : Json → Option Char
  | .str s => match s.toList with
    | [c] => some c
    | _ => none
  | _ => none

def asUnit? : Json → Option Unit
  | .null => some ()
  | _ => none

def asOption? (read : Json → Option α) : Json → Option (Option α)
  | .null => some none
  | j => (read j).map some

def asList? (read : Json → Option α) : Json → Option (List α)
  | .arr items => items.mapM read
  | _ => none

def asPair? (first : Json → Option α) (second : Json → Option β) : Json → Option (α × β)
  | .arr [a, b] => do return (← first a, ← second b)
  | _ => none

def asMap? (read : Json → Option α) : Json → Option (List (String × α))
  | .obj members => members.mapM fun (key, j) => do return (key, ← read j)
  | _ => none

def ofInteger? (n : Int) : Option Json := if fits n then some (.int n) else none

def ofFloat (x : Float) : Json := if x.isFinite then .float x else .null

def ofChar (c : Char) : Json := .str (String.singleton c)

def ofOption : Option Json → Json
  | some j => j
  | none => .null

def ofIntegerMap (entries : List (Int × Json)) : Json :=
  .obj (Dictionary.ofList (entries.map fun (k, j) => (String.ofList (intText k), j)))

def ofListMap? (entries : List (List Int × Int)) : Option Json :=
  if entries.isEmpty then some (.obj []) else none

end TabDeck.Json
