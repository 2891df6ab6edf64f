import TabDeck.State.Payload
/-!
Saved state: a payload in an envelope that tells which component wrote it, in which version, and what its
parent saved.
-/
namespace TabDeck.State

open TabDeck.Json (Document Input)

variable {α : Type}

structure SavedState (α : Type) where
  kind : String
  version : UInt32
  superState : Option Bundle
  state : α

structure Expectation where
  kind : Option String
  version : Option UInt32

namespace Expectation

def any : Expectation := ⟨none, none⟩

def check (e : Expectation) (kind : String) (version : UInt32) : Except StateError Unit :=
  match e.kind, e.version with
  | some expected, v =>
    if expected != kind then .error (.kindMismatch expected kind) else checkVersion v
  | none, v => checkVersion v
where
  checkVersion : Option UInt32 → Except StateError Unit
    | some expected => if expected != version then .error (.versionMismatch expected version) else .ok ()
    | none => .ok ()

end Expectation

namespace SavedState

def firstVersion : UInt32 := 1

def create (kind : String) (superState : Option Bundle) (state : α) : SavedState α :=
  ⟨kind, firstVersion, superState, state⟩

def same [BEq α] (a b : SavedState α) : Bool :=
  a.kind == b.kind && a.version == b.version && a.superState == b.superState && a.state == b.state

def toDocument? (p : Payload α) (s : SavedState α) : Option Document := do
  let superState ← Payload.bundle.optional.write s.superState
  let state ← p.write s.state
  return .object [
    (Json.glyphs "kind", .string (Json.glyphs s.kind)),
    (Json.glyphs "version", .number (Json.intText s.version.toNat)),
    (Json.glyphs "super_state", superState),
    (Json.glyphs "state", state)]

def field? {β : Type} (p : Payload β) (room : Nat) : Option Document → Option β
  | some d => p.read room d
  | none => p.absent

def ofDocument? (p : Payload α) (room : Nat) (d : Document) : Option (SavedState α) := do
  match ← Json.record? ["kind", "version", "super_state", "state"] 4 room d with
  | [kind, version, superState, state] =>
    let kind ← field? Payload.string (room - 1) kind
    let version ← field? (Payload.word 32) (room - 1) version
    let superState ← field? Payload.bundle.optional (room - 1) superState
    let state ← field? p (room - 1) state
    return ⟨kind, version.toNat.toUInt32, superState, state⟩
  | _ => none

def toParcel (p : Payload α) (s : SavedState α) : Except StateError String :=
  match s.toDocument? p with
  | some d => .ok d.text
  | none => .error (.unwritable "the payload has no document")

def ofParcel (p : Payload α) (e : Expectation) (parcel : Input) : Except StateError (SavedState α) :=
  match Document.read? parcel >>= ofDocument? p Json.nestingLimit with
  | none => .error (.unreadable "no saved state")
  | some s => do
    e.check s.kind s.version
    return s

end SavedState

end TabDeck.State
