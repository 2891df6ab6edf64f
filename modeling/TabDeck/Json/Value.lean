import TabDeck.Order
import TabDeck.Json.Reader
import TabDeck.Number.Layout
/-!
JSON values: what a document means. Whole numbers of 64 bits are exact, all other numbers are doubles,
and an object lists its keys in ascending order without repetition.
-/
namespace TabDeck

open TabDeck.Number (Binary Layout Numeral)

inductive Json where
  | null
  | bool (b : Bool)
  | int (n : Int)
  | float (x : Float)
  | str (s : String)
  | arr (items : List Json)
  | obj (members : List (String × Json))

namespace Json

def fits (n : Int) : Bool := -Int.pow 2 63 ≤ n && n < Int.pow 2 64

/-- `-0` and whole numbers of more than 64 bits are doubles. -/
def ofNumeral? (n : Numeral) : Option Json :=
  let whole : Int := Number.ofDigits n.whole
  let value := if n.negative then -whole else whole
  if n.fraction == [] && n.exponent == none && fits value && !(n.negative && whole == 0) then some (.int value)
  else n.toFloat?.map .float

def nestingLimit : Nat := 127

mutual

/-- The value of a document in which at most `room` arrays and objects nest. -/
def ofDocument? (room : Nat) : Document → Option Json
  | .null => some .null
  | .boolean b => some (.bool b)
  | .number text => do ofNumeral? (← Numeral.ofText? text)
  | .string glyphs => (string? glyphs).map .str
  | .array items =>
    match room with
    | 0 => none
    | room + 1 => (ofItems? room items).map .arr
  | .object members =>
    match room with
    | 0 => none
    | room + 1 => (ofMembers? room [] members).map .obj

def ofItems? (room : Nat) : List Document → Option (List Json)
  | [] => some []
  | d :: rest => do
    let j ← ofDocument? room d
    let js ← ofItems? room rest
    some (j :: js)

def ofMembers? (room : Nat) (done : List (String × Json)) : List (List Glyph × Document) →
    Option (List (String × Json))
  | [] => some done
  | (key, d) :: rest => do
    let k ← string? key
    let j ← ofDocument? room d
    ofMembers? room (Dictionary.insert k j done) rest

end

def read? (s : String) : Option Json := do
  ofDocument? nestingLimit (← Document.read? (.ofString s))

def intText (n : Int) : List Char :=
  if n < 0 then '-' :: Nat.toDigits 10 n.natAbs else Nat.toDigits 10 n.natAbs

def binaryDocument (l : Layout) (b : Binary) : Document :=
  match b.finiteText? l with
  | some text => .number text
  | none => .null

mutual

def toDocument : Json → Document
  | .null => .null
  | .bool b => .boolean b
  | .int n => .number (intText n)
  | .float x => binaryDocument .document64 (.ofFloat x)
  | .str s => .string (glyphs s)
  | .arr items => .array (itemDocuments items)
  | .obj members => .object (memberDocuments members)

def itemDocuments : List Json → List Document
  | [] => []
  | j :: rest => j.toDocument :: itemDocuments rest

def memberDocuments : List (String × Json) → List (List Glyph × Document)
  | [] => []
  | (key, j) :: rest => (glyphs key, j.toDocument) :: memberDocuments rest

end

def text (j : Json) : String := j.toDocument.text

mutual

def same : Json → Json → Bool
  | .null, .null => true
  | .bool a, .bool b => a == b
  | .int m, .int n => m == n
  | .float x, .float y => x == y
  | .str s, .str t => s == t
  | .arr xs, .arr ys => sameItems xs ys
  | .obj xs, .obj ys => sameMembers xs ys
  | _, _ => false

def sameItems : List Json → List Json → Bool
  | [], [] => true
  | x :: xs, y :: ys => same x y && sameItems xs ys
  | _, _ => false

def sameMembers : List (String × Json) → List (String × Json) → Bool
  | [], [] => true
  | (k, x) :: xs, (l, y) :: ys => k == l && same x y && sameMembers xs ys
  | _, _ => false

end

instance : BEq Json := ⟨same⟩

end Json

end TabDeck
