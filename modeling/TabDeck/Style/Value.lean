import TabDeck.Display.Metrics
import TabDeck.Json.Fields
import TabDeck.Style.Color

namespace TabDeck.Style

open TabDeck.Json (Document)

inductive LengthUnit where
  | px
  | dp
  | sp
  | pt
  | inch
  | mm
  deriving DecidableEq

namespace LengthUnit

def name : LengthUnit → String
  | .px => "px"
  | .dp => "dp"
  | .sp => "sp"
  | .pt => "pt"
  | .inch => "in"
  | .mm => "mm"

def ofName? (s : String) : Option LengthUnit :=
  [px, dp, sp, pt, inch, mm].find? (·.name == s)

def toPixels (u : LengthUnit) (value : Float32) (m : Display.Metrics) : Float32 :=
  let dpi := m.density * 160
  match u with
  | .px => value
  | .dp => value * m.density
  | .sp => value * m.density
  | .pt => value * dpi / 72
  | .inch => value * dpi
  | .mm => value * dpi / 25.4

end LengthUnit

inductive Value where
  | color (c : Color)
  | dimension (value : Float32) (unit : LengthUnit)
  | integer (n : Int32)
  | boolean (b : Bool)
  | text (s : String)
  | reference (id : UInt32)

namespace Value

def kind : Value → String
  | .color _ => "color"
  | .dimension _ _ => "dimension"
  | .integer _ => "integer"
  | .boolean _ => "boolean"
  | .text _ => "text"
  | .reference _ => "reference"

def asColor? : Value → Option Color
  | .color c => some c
  | .integer n => some ⟨n.toUInt32⟩
  | _ => none

/-- Nearest whole pixel, but at least one for a dimension that is not zero. -/
def wholePixels (value : Float32) (unit : LengthUnit) (m : Display.Metrics) : Int32 :=
  let rounded := (unit.toPixels value m).round.toInt32
  if rounded != 0 || value == 0 then rounded
  else if 0 < value then 1
  else -1

def asPixels? (m : Display.Metrics) : Value → Option Int32
  | .dimension value unit => some (wholePixels value unit m)
  | _ => none

def asReference? : Value → Option UInt32
  | .reference id => some id
  | _ => none

def asBoolean? : Value → Option Bool
  | .boolean b => some b
  | .integer n => some (n != 0)
  | _ => none

def asInteger? : Value → Option Int32
  | .integer n => some n
  | .boolean b => some (if b then 1 else 0)
  | _ => none

def asText? : Value → Option String
  | .text s => some s
  | .integer n => some (String.ofList (Json.intText n.toInt))
  | .boolean b => some (if b then "true" else "false")
  | .color c => some c.text
  | .dimension value unit => some ((Number.Binary.ofFloat32 value).display.toLower ++ unit.name)
  | .reference _ => none

def dimensionOfDocument? (room : Nat) (d : Document) : Option Value := do
  match ← Json.record? ["value", "unit"] 2 room d with
  | [some value, some unit] =>
    let x ← Json.scalar? value >>= Json.asFloat32?
    let name ← Json.name? (room - 1) unit
    some (.dimension x (← LengthUnit.ofName? name))
  | _ => none

def ofDocument? (room : Nat) (d : Document) : Option Value := do
  let (kind, content) ← Json.single? room d
  match kind with
  | "color" => (Json.unsigned32? content).map fun n => .color ⟨n⟩
  | "dimension" => dimensionOfDocument? (room - 1) content
  | "integer" => (Json.signed32? content).map .integer
  | "boolean" => (Json.scalar? content >>= Json.asBool?).map .boolean
  | "text" => (Json.scalar? content >>= Json.asString?).map .text
  | "reference" => (Json.unsigned32? content).map .reference
  | _ => none

def read? (s : String) : Option Value := do
  ofDocument? Json.nestingLimit (← Document.read? (.ofString s))

def content : Value → Document
  | .color c => .number (Json.intText c.argb.toNat)
  | .dimension value unit => .object [
      (Json.glyphs "value", Json.binaryDocument .document32 (.ofFloat32 value)),
      (Json.glyphs "unit", .string (Json.glyphs unit.name))]
  | .integer n => .number (Json.intText n.toInt)
  | .boolean b => .boolean b
  | .text s => .string (Json.glyphs s)
  | .reference id => .number (Json.intText id.toNat)

def toDocument (v : Value) : Document := .object [(Json.glyphs v.kind, v.content)]

end Value

end TabDeck.Style
