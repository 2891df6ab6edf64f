import TabDeck.Json.Shape

namespace TabDeck.Json

open TabDeck.Number (Numeral)

def scalar? (d : Document) : Option Json := ofDocument? 0 d

def integer? (low high : Int) (d : Document) : Option Int := scalar? d >>= asInteger? low high

/-- A whole number of any width, read from its digits; types without negative numbers refuse every sign. -/
def wide? (low high : Int) : Document → Option Int
  | .number text => do
    let n ← Numeral.ofText? text
    let whole : Int := Number.ofDigits n.whole
    let value := if n.negative then -whole else whole
    if n.fraction == [] && n.exponent == none && !(n.negative && 0 ≤ low) && low ≤ value && value ≤ high then
      some value
    else none
  | _ => none

def unsigned32? (d : Document) : Option UInt32 :=
  (integer? 0 (Int.pow 2 32 - 1) d).map fun n => n.toNat.toUInt32

def signed32? (d : Document) : Option Int32 :=
  (integer? (-Int.pow 2 31) (Int.pow 2 31 - 1) d).map Int32.ofInt

def optional? {α : Type} (read : Nat → Document → Option α) (room : Nat) : Document → Option (Option α)
  | .null => some none
  | d => (read room d).map some

def items? {α : Type} (read : Nat → Document → Option α) : Nat → Document → Option (List α)
  | room + 1, .array items => items.mapM (read room)
  | _, _ => none

def Glyph.plain? : Glyph → Option Char
  | .plain c => some c
  | _ => none

def integerKey? (read : Document → Option Int) (key : List Glyph) : Option Int := do
  let chars ← key.mapM Glyph.plain?
  read (.number chars)

def integerMap? {α : Type} (readKey : Document → Option Int) (read : Nat → Document → Option α) :
    Nat → Document → Option (List (Int × α))
  | room + 1, .object members => do
    let entries ← members.mapM fun (key, d) => do
      let k ← integerKey? readKey key
      let v ← read room d
      some (k, v)
    some (Dictionary.ofList entries)
  | _, _ => none

def single? : Nat → Document → Option (String × Document)
  | _ + 1, .object [(key, d)] => (string? key).map (·, d)
  | _, _ => none

def name? (room : Nat) (d : Document) : Option String :=
  match d with
  | .string glyphs => string? glyphs
  | d => match single? room d with
    | some (name, .null) => some name
    | _ => none

def atMostOne? (members : List (String × Document)) (name : String) : Option (Option Document) :=
  match members.filter (·.1 == name) with
  | [] => some none
  | [(_, d)] => some (some d)
  | _ => none

/-- The fields of a record: members of an object in any order, each at most once and among others, or
the items of an array, of which at least `least` are there. -/
def record? (names : List String) (least : Nat) : Nat → Document → Option (List (Option Document))
  | _ + 1, .array items =>
    if least ≤ items.length && items.length ≤ names.length then
      some (names.mapIdx fun i _ => items[i]?)
    else none
  | _ + 1, .object members => do
    let named ← members.mapM fun (key, d) => (string? key).map (·, d)
    names.mapM (atMostOne? named)
  | _, _ => none

end TabDeck.Json
