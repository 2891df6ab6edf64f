import TabDeck.Json.Document
import TabDeck.Number.Numeral
/-!
Reading a document: the text is cut into tokens, and the tokens are put together with a stack of the
arrays and objects that are still open. The grammar is that of RFC 8259.
-/
namespace TabDeck.Json

open TabDeck.Number (Numeral)
open TabDeck.Text

/-- A text as it arrives: its characters, and `none` for each byte that belongs to no character. -/
abbrev Input := List (Option Char)

def Input.ofString (s : String) : Input := s.toList.map some

def Input.ofBytes (bytes : ByteArray) (i : Nat) : Input :=
  if i < bytes.size then
    match bytes.utf8DecodeChar? i with
    | some c => some c :: Input.ofBytes bytes (i + c.utf8Size)
    | none => none :: Input.ofBytes bytes (i + 1)
  else []
termination_by bytes.size - i
decreasing_by
  · have := c.utf8Size_pos; omega
  · omega

def consGlyph (g : Glyph) (scanned : List Glyph × Input) : List Glyph × Input :=
  (g :: scanned.1, scanned.2)

def scanString : Input → Option (List Glyph × Input)
  | [] => none
  | some '"' :: rest => some ([], rest)
  | some '\\' :: some 'u' :: a :: b :: c :: d :: rest =>
    match [a, b, c, d].mapM id >>= Hex.number? with
    | some code => (scanString rest).map (consGlyph (.unit code))
    | none => none
  | some '\\' :: some letter :: rest =>
    if (escaped? letter).isSome then (scanString rest).map (consGlyph (.escape letter)) else none
  | some c :: rest =>
    if c = '\\' || c.toNat < 0x20 then none else (scanString rest).map (consGlyph (.plain c))
  | none :: rest => (scanString rest).map (consGlyph .stray)

inductive Token where
  | arrayOpen
  | arrayClose
  | objectOpen
  | objectClose
  | comma
  | colon
  | literal (d : Document)
  | text (glyphs : List Glyph)

def punctuation? : Char → Option Token
  | '[' => some .arrayOpen
  | ']' => some .arrayClose
  | '\x7b' => some .objectOpen
  | '\x7d' => some .objectClose
  | ',' => some .comma
  | ':' => some .colon
  | _ => none

def isBlank (c : Char) : Bool := c == ' ' || c == '\t' || c == '\n' || c == '\r'

def isWordChar (c : Char) : Bool := c.isAlphanum || c == '-' || c == '+' || c == '.'

def word? (text : List Char) : Option Document :=
  if text = "null".toList then some .null
  else if text = "true".toList then some (.boolean true)
  else if text = "false".toList then some (.boolean false)
  else (Numeral.ofText? text).map fun _ => .number text

def scanWord : Input → List Char × Input
  | some c :: rest =>
    if isWordChar c then
      let (word, after) := scanWord rest
      (c :: word, after)
    else ([], some c :: rest)
  | rest => ([], rest)

theorem scanWord_length_le (s : Input) : (scanWord s).2.length ≤ s.length := by
  fun_induction scanWord s <;> simp_all
  omega

theorem map_consGlyph_length_lt {s rest : Input} {g : Glyph} {gs : List Glyph} {n : Nat}
    (ih : ∀ {gs : List Glyph} {rest : Input}, scanString s = some (gs, rest) → rest.length < s.length)
    (h : (scanString s).map (consGlyph g) = some (gs, rest)) (hn : s.length ≤ n) : rest.length < n := by
  obtain ⟨⟨gs', after⟩, hs, he⟩ := Option.map_eq_some_iff.1 h
  have := ih hs
  simp only [consGlyph, Prod.mk.injEq] at he
  obtain ⟨-, rfl⟩ := he
  omega

theorem scanString_length_lt {s rest : Input} {gs : List Glyph} (h : scanString s = some (gs, rest)) :
    rest.length < s.length := by
  fun_induction scanString s generalizing gs rest with
  | case1 => simp at h
  | case2 rest' => simp_all
  | case3 a b c d rest' code hc ih => exact map_consGlyph_length_lt (fun h => ih h) h (by simp; omega)
  | case4 => simp at h
  | case5 letter rest' _ _ ih => exact map_consGlyph_length_lt (fun h => ih h) h (by simp; omega)
  | case6 => simp at h
  | case7 => simp at h
  | case8 c rest' _ _ _ _ ih => exact map_consGlyph_length_lt (fun h => ih h) h (by simp)
  | case9 rest' ih => exact map_consGlyph_length_lt (fun h => ih h) h (by simp)

def tokens? : Input → Option (List Token)
  | [] => some []
  | none :: _ => none
  | some c :: rest =>
    if isBlank c then tokens? rest
    else if c = '"' then
      match h : scanString rest with
      | none => none
      | some (gs, after) =>
        have := scanString_length_lt h
        (tokens? after).map (.text gs :: ·)
    else match punctuation? c with
      | some t => (tokens? rest).map (t :: ·)
      | none =>
        if isWordChar c then do
          let d ← word? (c :: (scanWord rest).1)
          have := scanWord_length_le rest
          let ts ← tokens? (scanWord rest).2
          some (.literal d :: ts)
        else none
termination_by s => s.length
decreasing_by all_goals simp_wf <;> omega

inductive Frame where
  | items (done : List Document)
  | members (done : List (List Glyph × Document)) (key : List Glyph)

inductive Expecting where
  | value (frames : List Frame)
  | valueOrClose (frames : List Frame)
  | keyOrClose (frames : List Frame)
  | key (done : List (List Glyph × Document)) (frames : List Frame)
  | colon (done : List (List Glyph × Document)) (key : List Glyph) (frames : List Frame)
  | after (d : Document) (frames : List Frame)

def Expecting.next? : Expecting → Token → Option Expecting
  | .value fs, .literal d => some (.after d fs)
  | .value fs, .text gs => some (.after (.string gs) fs)
  | .value fs, .arrayOpen => some (.valueOrClose fs)
  | .value fs, .objectOpen => some (.keyOrClose fs)
  | .valueOrClose fs, .arrayClose => some (.after (.array []) fs)
  | .valueOrClose fs, .literal d => some (.after d (.items [] :: fs))
  | .valueOrClose fs, .text gs => some (.after (.string gs) (.items [] :: fs))
  | .valueOrClose fs, .arrayOpen => some (.valueOrClose (.items [] :: fs))
  | .valueOrClose fs, .objectOpen => some (.keyOrClose (.items [] :: fs))
  | .keyOrClose fs, .objectClose => some (.after (.object []) fs)
  | .keyOrClose fs, .text k => some (.colon [] k fs)
  | .key done fs, .text k => some (.colon done k fs)
  | .colon done k fs, .colon => some (.value (.members done k :: fs))
  | .after d (.items done :: fs), .comma => some (.value (.items (d :: done) :: fs))
  | .after d (.items done :: fs), .arrayClose => some (.after (.array (d :: done).reverse) fs)
  | .after d (.members done k :: fs), .comma => some (.key ((k, d) :: done) fs)
  | .after d (.members done k :: fs), .objectClose => some (.after (.object ((k, d) :: done).reverse) fs)
  | _, _ => none

def Document.ofTokens? (ts : List Token) : Option Document :=
  match ts.foldlM Expecting.next? (.value []) with
  | some (.after d []) => some d
  | _ => none

def Document.read? (s : Input) : Option Document := do
  ofTokens? (← tokens? s)

end TabDeck.Json
