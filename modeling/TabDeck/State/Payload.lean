import TabDeck.Json.Fields
import TabDeck.State.Bundle

namespace TabDeck.State

open TabDeck.Json (Document)

/-- The reader takes the number of arrays and objects that may still nest. -/
structure Payload (α : Type) where
  write : α → Option Document
  read : Nat → Document → Option α
  absent : Option α

namespace Payload

variable {α : Type}

def json : Payload Json := ⟨fun j => some j.toDocument, Json.ofDocument?, none⟩

def integer (read : Document → Option Int) : Payload Int where
  write n := some (.number (Json.intText n))
  read _ := read
  absent := none

def wholeReader (bits : Nat) : Int → Int → Document → Option Int :=
  if bits ≤ 64 then Json.integer? else Json.wide?

def word (bits : Nat) : Payload Int := integer (wholeReader bits 0 (Int.pow 2 bits - 1))

def signed (bits : Nat) : Payload Int :=
  integer (wholeReader bits (-Int.pow 2 (bits - 1)) (Int.pow 2 (bits - 1) - 1))

def boolean : Payload Bool where
  write b := some (.boolean b)
  read _ d := Json.scalar? d >>= Json.asBool?
  absent := none

def string : Payload String where
  write s := some (.string (Json.glyphs s))
  read _ d := Json.scalar? d >>= Json.asString?
  absent := none

def float : Payload Float where
  write x := some (Json.binaryDocument .document64 (.ofFloat x))
  read _ d := Json.scalar? d >>= Json.asFloat?
  absent := none

def float32 : Payload Float32 where
  write x := some (Json.binaryDocument .document32 (.ofFloat32 x))
  read _ d := Json.scalar? d >>= Json.asFloat32?
  absent := none

def bundle : Payload Bundle where
  write b := some b.toJson.toDocument
  read room d := Json.ofDocument? room d >>= Bundle.ofJson?
  absent := none

def optional (p : Payload α) : Payload (Option α) where
  write
    | some a => p.write a
    | none => some .null
  read := Json.optional? p.read
  absent := some none

def list (p : Payload α) : Payload (List α) where
  write items := (items.mapM p.write).map .array
  read := Json.items? p.read
  absent := none

def keyedMap (readKey : Document → Option Int) (p : Payload α) : Payload (List (Int × α)) where
  write entries := do
    let members ← (Dictionary.ofList entries).mapM fun (k, a) => do
      return ((Json.intText k).map Json.Glyph.plain, ← p.write a)
    return .object members
  read := Json.integerMap? readKey p.read
  absent := none

def integerMap (p : Payload α) : Payload (List (Int × α)) :=
  keyedMap (wholeReader 64 (-Int.pow 2 63) (Int.pow 2 63 - 1)) p

def listMap : Payload (List (List Int × Int)) where
  write entries := if entries.isEmpty then some (.object []) else none
  read _
    | .object [] => some []
    | _ => none
  absent := none

end Payload

end TabDeck.State
