import TabDeck.Log.Logger
import TabDeck.Order
import TabDeck.Recycler.Basic
/-!
Recyclers that attach the views they make to containers, at the index that a comparator of the items asks for.
-/
namespace TabDeck.Recycler

open TabDeck.Log (Logger Level Severity)
open TabDeck.State (Bundle)

structure Attached (A X C I V : Type) where
  recycler : Recycler A X I V
  defaultContainer : Option C
  parents : List (I × C)
  order : List I
  comparator : Option (Comparator I)
  usesParentPadding : Bool
  logger : Logger

namespace Attached

variable {W A X C I V P E : Type}

def create (context : X) (defaultContainer : Option C) (comparator : Option (Comparator I)) :
    Attached A X C I V :=
  ⟨.create context none, defaultContainer, [], [], comparator, false, ⟨"AttachedViewRecycler", .off⟩⟩

def count (a : Attached A X C I V) : Nat := a.recycler.count

def summary (a : Attached A X C I V) (text : I → String) : String :=
  Text.summary "AttachedViewRecycler"
    [("recycler", a.recycler.summary), ("items", Text.bracketed (a.order.map text)),
      ("has_default_container", toString a.defaultContainer.isSome),
      ("has_comparator", toString a.comparator.isSome), ("use_parent_padding", toString a.usesParentPadding),
      ("log_level", a.logger.level.name.capitalize)]

def log (a : Attached A X C I V) (s : Severity) (message : String) : List (Event A X C I V P) :=
  (a.logger.write s message).map .log

/-- Where the item goes: after all items that are not greater, or last without a comparator. -/
def insertionIndex (a : Attached A X C I V) (item : I) : Nat :=
  match a.comparator with
  | some compare => partitionPoint (fun other => compare other item != .gt) a.order
  | none => a.order.length

variable [DecidableEq I]

def detachments (a : Attached A X C I V) (views : List (I × V)) : List (Event A X C I V P) :=
  views.filterMap fun (item, view) => (a.parents.lookup item).map fun parent => .detach parent view

def forgetParents (parents : List (I × C)) (views : List (I × V)) : List (I × C) :=
  views.foldl (fun parents e => parents.filter fun p => p.1 != e.1) parents

def removeAll (hooks : Hooks W A X C I V P E) (a : Attached A X C I V) (w : W) :
    Turn (Attached A X C I V) W (Event A X C I V P) Unit :=
  let t := a.recycler.removeAll hooks w
  ⟨{ a with recycler := t.state, parents := forgetParents a.parents t.result, order := [] }, t.world,
    t.events ++ a.detachments t.result ++
      a.log .debug ("Removed all views (" ++ toString t.result.length ++ " items)"), ()⟩

def removeAllViews (hooks : Hooks W A X C I V P E) (a : Attached A X C I V) (w : W) :
    Turn (Attached A X C I V) W (Event A X C I V P) Unit :=
  let t := a.removeAll hooks w
  { t with events := t.events ++ a.defaultContainer.toList.map .clear }

variable (text : I → String)

def place (a : Attached A X C I V) (item : I) (view : V) (container : Option C) (index : Nat) :
    Attached A X C I V × List (Event A X C I V P) :=
  ({ a with
      order := a.order.insertIdx index item
      parents := container.elim a.parents fun c => (item, c) :: a.parents },
    container.toList.map (.attach · view index) ++
      a.log .debug ("Inflated view to represent item " ++ text item ++ " at index " ++ toString index))

def inflate (hooks : Hooks W A X C I V P E) (a : Attached A X C I V) (w : W) (item : I)
    (container : Option C) (params : P) :
    Turn (Attached A X C I V) W (Event A X C I V P) (Except E (Option (Inflation V))) :=
  let container := container.or a.defaultContainer
  let index := a.insertionIndex item
  let t := a.recycler.obtain hooks w item container index params
  let obtained := { a with recycler := t.state }
  match t.result with
  | .ok (some i) =>
    let (placed, events) := if i.inflated then obtained.place text item i.view container index
      else (obtained, obtained.log .trace ("Reusing view to represent item " ++ text item))
    let shown := t.state.display hooks t.world item i params
    ⟨placed, shown.world, t.events ++ events ++ shown.events, shown.result⟩
  | result => ⟨obtained, t.world, t.events, result⟩

def remove (hooks : Hooks W A X C I V P E) (a : Attached A X C I V) (w : W) (item : I) :
    Turn (Attached A X C I V) W (Event A X C I V P) (Option V) :=
  let t := a.recycler.remove hooks w item
  match t.result with
  | none => ⟨{ a with recycler := t.state }, t.world, t.events, none⟩
  | some v =>
    ⟨{ a with
        recycler := t.state
        order := a.order.erase item
        parents := a.parents.filter fun e => e.1 != item },
      t.world, t.events ++ a.detachments [(item, v)] ++ a.log .debug ("Removed view of item " ++ text item),
      some v⟩

inductive Op (A C I P : Type) where
  | basic (op : Recycler.Op A C I P)
  | removeAllViews
  | setDefault (container : Option C)
  | setComparator (compare : Option (Comparator I))
  | setPadding (uses : Bool)
  | setLevel (level : Level)

def step (hooks : Hooks W A X C I V P E) (a : Attached A X C I V) (w : W) :
    Op A C I P → Turn (Attached A X C I V) W (Event A X C I V P) (Answer A V E)
  | .basic (.inflate item container params) => (a.inflate text hooks w item container params).map id .inflation
  | .basic (.remove item) => (a.remove text hooks w item).map id .view
  | .basic .removeAll => (a.removeAll hooks w).map id fun _ => .done
  | .basic op => (a.recycler.step hooks w op).map (fun recycler => { a with recycler }) id
  | .removeAllViews => (a.removeAllViews hooks w).map id fun _ => .done
  | .setDefault container => ⟨{ a with defaultContainer := container }, w, [], .done⟩
  | .setComparator compare => ⟨{ a with comparator := compare }, w, [], .done⟩
  | .setPadding uses => ⟨{ a with usesParentPadding := uses }, w, [], .done⟩
  | .setLevel level => ⟨{ a with logger := { a.logger with level } }, w, [], .done⟩

end Attached

end TabDeck.Recycler
