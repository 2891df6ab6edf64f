import TabDeck.Json.Shape

namespace TabDeck.State

inductive StateError where
  | unwritable (detail : String)
  | unreadable (detail : String)
  | kindMismatch (expected found : String)
  | versionMismatch (expected found : UInt32)

def StateError.message : StateError → String
  | .unwritable detail => s!"failed to encode state: {detail}"
  | .unreadable detail => s!"failed to decode state: {detail}"
  | .kindMismatch expected found => s!"saved state kind mismatch: expected {expected}, found {found}"
  | .versionMismatch expected found =>
    s!"saved state version mismatch: expected {expected.toNat}, found {found.toNat}"

variable {α : Type}

structure Bundle where
  entries : List (String × Json)

namespace Bundle

def empty : Bundle := ⟨[]⟩

def value? (b : Bundle) (key : String) : Option Json := b.entries.lookup key

def put (b : Bundle) (key : String) : Option Json → Except StateError Bundle
  | some j => .ok ⟨Dictionary.insert key j b.entries⟩
  | none => .error (.unwritable "the data has no value")

def get (b : Bundle) (key : String) (read : Json → Option α) : Except StateError (Option α) :=
  match b.value? key with
  | none => .ok none
  | some j =>
    match read j with
    | some a => .ok (some a)
    | none => .error (.unreadable s!"{key}: another kind of value")

def getOr (b : Bundle) (key : String) (read : Json → Option α) (fallback : α) : α :=
  (b.value? key >>= read).getD fallback

def contains (b : Bundle) (key : String) : Bool := (b.value? key).isSome

def remove (b : Bundle) (key : String) : Bundle := ⟨Dictionary.erase key b.entries⟩

def keys (b : Bundle) : List String := b.entries.map (·.1)

def size (b : Bundle) : Nat := b.entries.length

def toJson (b : Bundle) : Json := .obj b.entries

def ofJson? : Json → Option Bundle
  | .obj entries => some ⟨entries⟩
  | _ => none

def read? (s : String) : Option Bundle := Json.read? s >>= ofJson?

instance : BEq Bundle := ⟨fun a b => a.toJson == b.toJson⟩

end Bundle

end TabDeck.State
