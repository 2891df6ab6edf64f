import TabDeck.Log.Record
import TabDeck.Style.Value
/-!
Themes: attributes with values. What a theme does not define is looked up in its ancestors.
-/
namespace TabDeck.Style

open TabDeck.Json (Document)
open TabDeck.Log (Record)

structure Layer where
  name : String
  values : List (UInt32 × Value)

/-- A theme with its ancestors, the parent first. -/
structure Theme where
  own : Layer
  ancestors : List Layer

inductive ThemeError where
  | unknownAttribute (attr : UInt32)
  | wrongKind (attr : UInt32) (expected found : String)
  | malformed (detail : String)

def ThemeError.message : ThemeError → String
  | .unknownAttribute a => s!"unknown theme attribute: {a.toNat}"
  | .wrongKind a expected found => s!"theme attribute {a.toNat} is a {found}, expected a {expected}"
  | .malformed detail => s!"theme parse error: {detail}"

namespace Theme

def named (name : String) : Theme := ⟨⟨name, []⟩, []⟩

def inheriting (name : String) (parent : Theme) : Theme :=
  ⟨⟨name, []⟩, parent.own :: parent.ancestors⟩

def name (t : Theme) : String := t.own.name

def set (t : Theme) (attr : UInt32) (v : Value) : Theme :=
  { t with own := { t.own with values := Dictionary.insert attr v t.own.values } }

def resolve (t : Theme) (attr : UInt32) : Option Value :=
  (t.own :: t.ancestors).findSome? fun l => l.values.lookup attr

def require {α : Type} (t : Theme) (attr : UInt32) (expected : String) (coerce : Value → Option α) :
    Except ThemeError α :=
  match t.resolve attr with
  | none => .error (.unknownAttribute attr)
  | some v =>
    match coerce v with
    | some a => .ok a
    | none => .error (.wrongKind attr expected v.kind)

def color (t : Theme) (attr : UInt32) : Except ThemeError Color :=
  t.require attr "color" Value.asColor?

def pixels (t : Theme) (attr : UInt32) (m : Display.Metrics) : Except ThemeError Int32 :=
  t.require attr "dimension" (Value.asPixels? m)

def resource (t : Theme) (attr : UInt32) : Except ThemeError UInt32 :=
  t.require attr "reference" Value.asReference?

def drawable (t : Theme) (attr : UInt32) : Option UInt32 := (t.resource attr).toOption

def coerced {α : Type} (t : Theme) (attr : UInt32) (expected : String) (coerce : Value → Option α) :
    Option α × List Record :=
  let found := t.resolve attr
  match found.bind coerce with
  | some a => (some a, [])
  | none => (none, [⟨.trace, "attribute fallback", [
      ("theme", t.name),
      ("attr", toString attr.toNat),
      ("expected", expected),
      ("found", (found.map Value.kind).getD "nothing")]⟩])

def boolean (t : Theme) (attr : UInt32) (fallback : Bool) : Bool × List Record :=
  (t.coerced attr "boolean" Value.asBoolean?).map (·.getD fallback) id

def int (t : Theme) (attr : UInt32) (fallback : Int32) : Int32 × List Record :=
  (t.coerced attr "integer" Value.asInteger?).map (·.getD fallback) id

def text (t : Theme) (attr : UInt32) : Option String × List Record :=
  t.coerced attr "text" Value.asText?

def ofDocument? (room : Nat) (d : Document) : Option Theme := do
  match ← Json.record? ["name", "values"] 1 room d with
  | [some name, values] =>
    let name ← Json.scalar? name >>= Json.asString?
    let entries ← match values with
      | none => some []
      | some v => Json.integerMap? (Json.integer? 0 (Int.pow 2 32 - 1)) Value.ofDocument? (room - 1) v
    some (entries.foldl (fun t e => t.set e.1.toNat.toUInt32 e.2) (named name))
  | _ => none

def load (s : String) : Except ThemeError (Theme × List Record) :=
  match Document.read? (.ofString s) >>= ofDocument? Json.nestingLimit with
  | none => .error (.malformed "no theme document")
  | some t => .ok (t, [⟨.debug, "theme loaded", [
      ("theme", t.name),
      ("attributes", toString t.own.values.length)]⟩])

end Theme

end TabDeck.Style
