import TabDeck.Proofs.Json.Numbers
import TabDeck.Proofs.Json.Strings

namespace TabDeck.Json

open TabDeck.Number (Numeral)

@[elab_as_elim, induction_eliminator]
theorem Document.inductOn {motive : Document → Prop} (null : motive .null) (boolean : ∀ b, motive (.boolean b))
    (number : ∀ text, motive (.number text)) (string : ∀ gs, motive (.string gs))
    (array : ∀ items, (∀ d ∈ items, motive d) → motive (.array items))
    (object : ∀ members, (∀ m ∈ members, motive m.2) → motive (.object members)) : ∀ d, motive d
  | .null => null
  | .boolean b => boolean b
  | .number text => number text
  | .string gs => string gs
  | .array items => array items fun d hd =>
    have := List.sizeOf_lt_of_mem hd
    Document.inductOn null boolean number string array object d
  | .object members => object members fun m hm =>
    have := List.sizeOf_lt_of_mem hm
    Document.inductOn null boolean number string array object m.2
decreasing_by
  · decreasing_tactic
  · obtain ⟨key, d⟩ := m
    simp only [Prod.mk.sizeOf_spec, Document.object.sizeOf_spec] at *
    omega

mutual

def Document.nesting : Document → Nat
  | .array items => itemNesting items + 1
  | .object members => memberNesting members + 1
  | _ => 0

def itemNesting : List Document → Nat
  | [] => 0
  | d :: rest => max d.nesting (itemNesting rest)

def memberNesting : List (List Glyph × Document) → Nat
  | [] => 0
  | (_, d) :: rest => max d.nesting (memberNesting rest)

end

theorem itemNesting_le_iff {items : List Document} {n : Nat} :
    itemNesting items ≤ n ↔ ∀ d ∈ items, d.nesting ≤ n := by
  induction items with
  | nil => simp [itemNesting]
  | cons d rest ih => rw [itemNesting, Nat.max_le, ih, List.forall_mem_cons]

theorem memberNesting_le_iff {members : List (List Glyph × Document)} {n : Nat} :
    memberNesting members ≤ n ↔ ∀ m ∈ members, m.2.nesting ≤ n := by
  induction members with
  | nil => simp [memberNesting]
  | cons m rest ih =>
    obtain ⟨key, d⟩ := m
    rw [memberNesting, Nat.max_le, ih, List.forall_mem_cons]

inductive Document.Legible : Document → Prop where
  | null : Legible .null
  | boolean (b : Bool) : Legible (.boolean b)
  | number (text : List Char) (hword : ∀ c ∈ text, isWordChar c = true)
      (hnumeral : (Numeral.ofText? text).isSome = true) : Legible (.number text)
  | string (gs : List Glyph) (h : ∀ g ∈ gs, g.Legible) : Legible (.string gs)
  | array (items : List Document) (h : ∀ d ∈ items, d.Legible) : Legible (.array items)
  | object (members : List (List Glyph × Document)) (hkeys : ∀ m ∈ members, ∀ g ∈ m.1, g.Legible)
      (hvalues : ∀ m ∈ members, m.2.Legible) : Legible (.object members)

theorem legible_int (n : Int) : (Document.number (intText n)).Legible :=
  .number _ (fun _ => isWordChar_intText) (by rw [Numeral.ofText?_intText]; rfl)

theorem legible_str (s : String) : (Document.string (glyphs s)).Legible := .string _ fun _ => legible_glyphs

end TabDeck.Json
