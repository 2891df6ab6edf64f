import TabDeck.Recycler.Adapter
import TabDeck.Text.Basic
/-!
Recyclers keep at most one view for an item: it is made when it is first wanted and shown again until it is
removed.
-/
namespace TabDeck

open TabDeck.Recycler
open TabDeck.State (Bundle)

/-- The views of the active items come in the order in which they were made. -/
structure Recycler (A X I V : Type) where
  context : X
  adapter : Option A
  active : List (I × V)

namespace Recycler

variable {W A X C I V P E : Type}

def create (context : X) (adapter : Option A) : Recycler A X I V := ⟨context, adapter, []⟩

def count (r : Recycler A X I V) : Nat := r.active.length

def items (r : Recycler A X I V) : List I := r.active.map (·.1)

def summary (r : Recycler A X I V) : String :=
  Text.summary "ViewRecycler" [("has_adapter", toString r.adapter.isSome), ("active", toString r.count)]

def display (hooks : Hooks W A X C I V P E) (r : Recycler A X I V) (w : W) (item : I) (i : Inflation V)
    (params : P) : Turn (Recycler A X I V) W (Event A X C I V P) (Except E (Option (Inflation V))) :=
  match r.adapter with
  | none => ⟨r, w, [], .ok (some i)⟩
  | some a =>
    let (w', result) := hooks.display w a r.context i.view item i.inflated params
    ⟨r, w', [.display r.context i.view item i.inflated params], result.map fun _ => some i⟩

def removeAll (hooks : Hooks W A X C I V P E) (r : Recycler A X I V) (w : W) :
    Turn (Recycler A X I V) W (Event A X C I V P) (List (I × V)) :=
  let drained := hooks.drain r.active
  let note := .note (.removedAll drained.length)
  match r.adapter with
  | none => ⟨{ r with active := [] }, w, [note], drained⟩
  | some a => ⟨{ r with active := [] }, drained.foldl (fun w e => hooks.dispose w a e.2) w,
      drained.map (fun e => .dispose a e.2) ++ [note], drained⟩

variable [DecidableEq I]

def view? (r : Recycler A X I V) (item : I) : Option V := r.active.lookup item

def isActive (r : Recycler A X I V) (item : I) : Bool := (r.view? item).isSome

def obtain (hooks : Hooks W A X C I V P E) (r : Recycler A X I V) (w : W) (item : I) (container : Option C)
    (index : Nat) (params : P) :
    Turn (Recycler A X I V) W (Event A X C I V P) (Except E (Option (Inflation V))) :=
  match r.view? item, r.adapter with
  | some v, _ => ⟨r, w, [], .ok (some ⟨v, false⟩)⟩
  | none, none => ⟨r, w, [.note (.noAdapter item)], .ok none⟩
  | none, some a =>
    let (w', made) := hooks.inflate w a container item index params
    let call := .inflate container item index params
    match made with
    | .error e => ⟨r, w', [call], .error e⟩
    | .ok v =>
      let r' := { r with active := r.active ++ [(item, v)] }
      ⟨r', w', [call, .note (.inflated item index r'.count)], .ok (some ⟨v, true⟩)⟩

def inflate (hooks : Hooks W A X C I V P E) (r : Recycler A X I V) (w : W) (item : I) (container : Option C)
    (params : P) : Turn (Recycler A X I V) W (Event A X C I V P) (Except E (Option (Inflation V))) :=
  let t := r.obtain hooks w item container r.count params
  match t.result with
  | .ok (some i) =>
    let shown := t.state.display hooks t.world item i params
    { shown with events := t.events ++ shown.events }
  | _ => t

def remove (hooks : Hooks W A X C I V P E) (r : Recycler A X I V) (w : W) (item : I) :
    Turn (Recycler A X I V) W (Event A X C I V P) (Option V) :=
  match r.view? item with
  | none => ⟨r, w, [], none⟩
  | some v =>
    let r' := { r with active := r.active.filter fun e => e.1 != item }
    let note := .note (.removed item r'.count)
    match r.adapter with
    | none => ⟨r', w, [note], some v⟩
    | some a => ⟨r', hooks.dispose w a v, [.dispose a v, note], some v⟩

def save (hooks : Hooks W A X C I V P E) (r : Recycler A X I V) (w : W) (item : I) :
    Turn (Recycler A X I V) W (Event A X C I V P) (Option Bundle) :=
  match r.adapter, r.view? item with
  | some a, some v => ⟨r, w, [.save v item], hooks.save w a v item⟩
  | _, _ => ⟨r, w, [], none⟩

def restore (hooks : Hooks W A X C I V P E) (r : Recycler A X I V) (w : W) (item : I) (state : Bundle) :
    Turn (Recycler A X I V) W (Event A X C I V P) Bool :=
  match r.adapter, r.view? item with
  | some a, some v => ⟨r, hooks.restore w a v item state, [.restore v item state], true⟩
  | _, _ => ⟨r, w, [], false⟩

inductive Op (A C I P : Type) where
  | setAdapter (adapter : Option A)
  | inflate (item : I) (container : Option C) (params : P)
  | remove (item : I)
  | removeAll
  | save (item : I)
  | restore (item : I) (state : Bundle)

inductive Answer (A V E : Type) where
  | done
  | adapter (a : Option A)
  | inflation (result : Except E (Option (Inflation V)))
  | view (v : Option V)
  | state (b : Option Bundle)
  | restored (b : Bool)

def step (hooks : Hooks W A X C I V P E) (r : Recycler A X I V) (w : W) :
    Op A C I P → Turn (Recycler A X I V) W (Event A X C I V P) (Answer A V E)
  | .setAdapter adapter => ⟨{ r with adapter }, w, [], .adapter r.adapter⟩
  | .inflate item container params => (r.inflate hooks w item container params).map id .inflation
  | .remove item => (r.remove hooks w item).map id .view
  | .removeAll => (r.removeAll hooks w).map id fun _ => .done
  | .save item => (r.save hooks w item).map id .state
  | .restore item state => (r.restore hooks w item state).map id .restored

end Recycler

end TabDeck
