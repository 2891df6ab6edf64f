import TabDeck.Text.Basic

namespace TabDeck.Style

open TabDeck.Text

structure Color where
  argb : UInt32
  deriving DecidableEq

namespace Color

def transparent : Color := ⟨0⟩

def black : Color := ⟨0xFF000000⟩

def white : Color := ⟨0xFFFFFFFF⟩

def ofArgb (a r g b : UInt8) : Color :=
  ⟨a.toUInt32 <<< 24 ||| r.toUInt32 <<< 16 ||| g.toUInt32 <<< 8 ||| b.toUInt32⟩

def ofRgb (r g b : UInt8) : Color := ofArgb 0xFF r g b

def alpha (c : Color) : UInt8 := (c.argb >>> 24).toUInt8

def red (c : Color) : UInt8 := (c.argb >>> 16).toUInt8

def green (c : Color) : UInt8 := (c.argb >>> 8).toUInt8

def blue (c : Color) : UInt8 := c.argb.toUInt8

def withAlpha (c : Color) (a : UInt8) : Color :=
  ⟨(c.argb &&& (0x00FFFFFF : UInt32)) ||| (a.toUInt32 <<< (24 : UInt32))⟩

def text (c : Color) : String := String.ofList ('#' :: Hex.upperDigits 8 c.argb.toNat)

/-- The number in front of which one plus sign may stand. -/
def signedHex? : List Char → Option Nat
  | '+' :: digits => Hex.number? digits
  | digits => Hex.number? digits

def ofChars? : List Char → Option Color
  | '#' :: hex => do
    let n ← signedHex? hex
    match hex.length with
    | 6 => some ⟨0xFF000000 ||| n.toUInt32⟩
    | 8 => some ⟨n.toUInt32⟩
    | _ => none
  | _ => none

end Color

structure InvalidColor where
  text : String

def InvalidColor.message (e : InvalidColor) : String := "invalid color: " ++ e.text

def Color.parse (s : String) : Except InvalidColor Color :=
  match ofChars? s.toList with
  | some c => .ok c
  | none => .error ⟨s⟩

end TabDeck.Style
