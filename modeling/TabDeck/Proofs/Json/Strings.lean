import TabDeck.Json.Reader
import TabDeck.Proofs.Text.Hex

namespace TabDeck.Json

open TabDeck.Text

inductive Glyph.Legible : Glyph → Prop where
  | plain (c : Char) (hq : c ≠ '"') (hb : c ≠ '\\') (hc : 0x20 ≤ c.toNat) : Legible (.plain c)
  | escape (letter : Char) (h : (escaped? letter).isSome = true) : Legible (.escape letter)
  | unit (code : Nat) (h : code < 16 ^ 4) : Legible (.unit code)

section Scanning

variable {rest : Input}

theorem scanString_quote : scanString (some '"' :: rest) = some ([], rest) := by
  rw [scanString]

theorem scanString_plain {c : Char} (hq : c ≠ '"') (hb : c ≠ '\\') (hc : 0x20 ≤ c.toNat) :
    scanString (some c :: rest) = (scanString rest).map (consGlyph (.plain c)) := by
  rw [scanString]
  · rw [if_neg]
    simp [hb, Nat.not_lt.mpr hc]
  · simp [hq]
  · simp [hb]
  · simp [hb]

theorem scanString_escape {letter : Char} (h : (escaped? letter).isSome = true) :
    scanString (some '\\' :: some letter :: rest) = (scanString rest).map (consGlyph (.escape letter)) := by
  rw [scanString]
  · rw [if_pos h]
  · rintro a b c d after - rfl
    exact absurd h (by decide)

theorem scanString_unit {code : Nat} {a b c d : Char} (h : Hex.number? [a, b, c, d] = some code) :
    scanString (some '\\' :: some 'u' :: some a :: some b :: some c :: some d :: rest) =
      (scanString rest).map (consGlyph (.unit code)) := by
  rw [scanString]
  have hcode : ([some a, some b, some c, some d].mapM id >>= Hex.number?) = some code := h
  simp only [hcode]

theorem scanString_glyph {g : Glyph} (h : g.Legible) :
    scanString (g.render.map some ++ rest) = (scanString rest).map (consGlyph g) := by
  cases h with
  | plain c hq hb hc => exact scanString_plain hq hb hc
  | escape letter h => exact scanString_escape h
  | unit code h =>
    obtain ⟨a, b, c, d, hd⟩ : ∃ a b c d, Hex.digits 4 code = [a, b, c, d] := by
      have hlen := Hex.length_digits (by omega) h
      match Hex.digits 4 code, hlen with
      | [a, b, c, d], _ => exact ⟨a, b, c, d, rfl⟩
    have hcode : Hex.number? [a, b, c, d] = some code := hd ▸ Hex.number?_digits 4 code
    rw [Glyph.render, hd]
    exact scanString_unit hcode

theorem scanString_render {gs : List Glyph} (h : ∀ g ∈ gs, g.Legible) :
    scanString ((gs.flatMap Glyph.render).map some ++ some '"' :: rest) = some (gs, rest) := by
  induction gs with
  | nil => exact scanString_quote
  | cons g gs ih =>
    rw [List.flatMap_cons, List.map_append, List.append_assoc, scanString_glyph (h g List.mem_cons_self),
      ih fun g' hg => h g' (List.mem_cons_of_mem g hg)]
    rfl

end Scanning

section Meaning

theorem characters?_unit {code : Nat} (hh : highSurrogate code = false) (hl : lowSurrogate code = false)
    (rest : List Glyph) : characters? (.unit code :: rest) = (characters? rest).map (Char.ofNat code :: ·) := by
  cases rest with
  | nil => simp [characters?, hh, hl]
  | cons g rest => cases g <;> simp [characters?, hh, hl]

theorem characters?_ofChar (c : Char) (rest : List Glyph) :
    characters? (Glyph.ofChar c :: rest) = (characters? rest).map (c :: ·) := by
  have hescape (letter d : Char) (h : escaped? letter = some d) :
      characters? (.escape letter :: rest) = (characters? rest).map (d :: ·) := by
    rw [characters?, h]
    cases characters? rest <;> rfl
  unfold Glyph.ofChar
  split
  · exact hescape _ _ rfl
  · exact hescape _ _ rfl
  · exact hescape _ _ rfl
  · exact hescape _ _ rfl
  · exact hescape _ _ rfl
  · exact hescape _ _ rfl
  · exact hescape _ _ rfl
  · by_cases hc : c.toNat < 0x20
    · rw [if_pos hc, characters?_unit, Char.ofNat_toNat]
      · simp [highSurrogate]; omega
      · simp [lowSurrogate]; omega
    · rw [if_neg hc, characters?]

theorem legible_ofChar (c : Char) : (Glyph.ofChar c).Legible := by
  unfold Glyph.ofChar
  split
  · exact .escape _ rfl
  · exact .escape _ rfl
  · exact .escape _ rfl
  · exact .escape _ rfl
  · exact .escape _ rfl
  · exact .escape _ rfl
  · exact .escape _ rfl
  · by_cases hc : c.toNat < 0x20
    · rw [if_pos hc]
      exact .unit _ (by omega)
    · rw [if_neg hc]
      exact .plain c ‹_› ‹_› (by omega)

theorem characters?_map_ofChar (cs : List Char) : characters? (cs.map Glyph.ofChar) = some cs := by
  induction cs with
  | nil => rw [List.map_nil, characters?]
  | cons c cs ih => rw [List.map_cons, characters?_ofChar, ih, Option.map_some]

theorem string?_glyphs (s : String) : string? (glyphs s) = some s := by
  rw [string?, glyphs, characters?_map_ofChar, Option.map_some, String.ofList_toList]

theorem legible_glyphs {s : String} {g : Glyph} (h : g ∈ glyphs s) : g.Legible := by
  obtain ⟨c, -, rfl⟩ := List.mem_map.mp h
  exact legible_ofChar c

end Meaning

end TabDeck.Json
