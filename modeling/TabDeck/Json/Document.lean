import TabDeck.Text.Basic

namespace TabDeck.Json

inductive Glyph where
  | plain (c : Char)
  | escape (letter : Char)
  | unit (code : Nat)
  | stray
  deriving DecidableEq

inductive Document where
  | null
  | boolean (b : Bool)
  | number (text : List Char)
  | string (glyphs : List Glyph)
  | array (items : List Document)
  | object (members : List (List Glyph × Document))

def escaped? : Char → Option Char
  | '"' => some '"'
  | '\\' => some '\\'
  | '/' => some '/'
  | 'b' => some '\x08'
  | 'f' => some '\x0c'
  | 'n' => some '\n'
  | 'r' => some '\r'
  | 't' => some '\t'
  | _ => none

def highSurrogate (code : Nat) : Bool := 0xD800 ≤ code && code < 0xDC00

def lowSurrogate (code : Nat) : Bool := 0xDC00 ≤ code && code < 0xE000

/-- The characters of a written string; a surrogate outside a pair and a stray byte stand for none. -/
def characters? : List Glyph → Option (List Char)
  | [] => some []
  | .plain c :: rest => (characters? rest).map (c :: ·)
  | .escape letter :: rest => do
    let c ← escaped? letter
    let cs ← characters? rest
    some (c :: cs)
  | .unit high :: .unit low :: rest =>
    if highSurrogate high && lowSurrogate low then
      (characters? rest).map (Char.ofNat (0x10000 + (high - 0xD800) * 0x400 + (low - 0xDC00)) :: ·)
    else if highSurrogate high || lowSurrogate high then none
    else (characters? (.unit low :: rest)).map (Char.ofNat high :: ·)
  | .unit code :: rest =>
    if highSurrogate code || lowSurrogate code then none
    else (characters? rest).map (Char.ofNat code :: ·)
  | .stray :: _ => none

def string? (glyphs : List Glyph) : Option String := (characters? glyphs).map String.ofList

def Glyph.ofChar (c : Char) : Glyph :=
  match c with
  | '"' => .escape '"'
  | '\\' => .escape '\\'
  | '\x08' => .escape 'b'
  | '\x0c' => .escape 'f'
  | '\n' => .escape 'n'
  | '\r' => .escape 'r'
  | '\t' => .escape 't'
  | c => if c.toNat < 0x20 then .unit c.toNat else .plain c

def glyphs (s : String) : List Glyph := s.toList.map Glyph.ofChar

def Glyph.render : Glyph → List Char
  | .plain c => [c]
  | .escape letter => ['\\', letter]
  | .unit code => '\\' :: 'u' :: Text.Hex.digits 4 code
  | .stray => []

def renderString (glyphs : List Glyph) : List Char :=
  '"' :: glyphs.flatMap Glyph.render ++ ['"']

mutual

def Document.render : Document → List Char
  | .null => "null".toList
  | .boolean b => (if b then "true" else "false").toList
  | .number text => text
  | .string glyphs => renderString glyphs
  | .array items => '[' :: renderItems items ++ [']']
  | .object members => '\x7b' :: renderMembers members ++ ['\x7d']

def renderItems : List Document → List Char
  | [] => []
  | [d] => d.render
  | d :: rest => d.render ++ ',' :: renderItems rest

def renderMembers : List (List Glyph × Document) → List Char
  | [] => []
  | [(key, d)] => renderString key ++ ':' :: d.render
  | (key, d) :: rest => renderString key ++ ':' :: d.render ++ ',' :: renderMembers rest

end

def Document.text (d : Document) : String := String.ofList d.render

end TabDeck.Json
