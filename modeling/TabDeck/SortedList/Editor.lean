import TabDeck.Log.Record
import TabDeck.SortedList.Basic
/-!
Edits of sorted lists. An editor collects what is wanted; a commit turns it into a series of changes whose
order does not depend on the order in which the edits of different kinds came.
-/
namespace TabDeck.SortedList

open TabDeck.Log (Record)

variable {α κ : Type}

inductive Edit (α : Type) where
  | add (a : α)
  | addAll (as : List α)
  | remove (a : α)
  | removeAllOf (as : List α)
  | replaceAll (as : List α)
  | removeAll

structure Editor (α : Type) where
  additions : List α
  removals : List α
  replacement : Option (List α)
  clearing : Bool

inductive Change (α : Type) where
  | clear
  | insert (a : α)
  | remove (a : α)

namespace Editor

def empty : Editor α := ⟨[], [], none, false⟩

def push (e : Editor α) : Edit α → Editor α
  | .add a => { e with additions := e.additions ++ [a] }
  | .addAll as => { e with additions := e.additions ++ as }
  | .remove a => { e with removals := e.removals ++ [a] }
  | .removeAllOf as => { e with removals := e.removals ++ as }
  | .replaceAll as => { e with replacement := some as }
  | .removeAll => { e with clearing := true }

def ofEdits (edits : List (Edit α)) : Editor α := edits.foldl push empty

/-- The changes of a commit: clearing, replacement, removals and additions, in this order. -/
def changes (e : Editor α) : List (Change α) :=
  (if e.clearing then [.clear] else []) ++ (e.replacement.elim [] fun as => .clear :: as.map .insert) ++
    e.removals.map .remove ++ e.additions.map .insert

end Editor

inductive Event (α κ : Type) where
  | started (callback : κ)
  | change (c : Change α)
  | note (r : Record)
  | finished (callback : κ)

variable [Model α]

def change (l : SortedList α) : Change α → SortedList α × Summary
  | .clear => l.clear
  | .insert a => l.insert a
  | .remove a => l.remove a

def commitRecord (l : SortedList α) (s : Summary) : Record :=
  ⟨.trace, "sorted list edit committed", [("inserted", toString s.inserted), ("removed", toString s.removed),
    ("changed", toString s.changed), ("len", toString l.size)]⟩

structure Editing (α κ : Type) where
  list : SortedList α
  summary : Summary
  events : List (Event α κ)

def Editing.change (x : Editing α κ) (c : Change α) : Editing α κ :=
  let (list, s) := x.list.change c
  ⟨list, x.summary.add s, x.events ++ [.change c]⟩

/-- The callback is called before the first change and after the last one, also if there are none. -/
def commitWith (l : SortedList α) (callback : Option κ) (e : Editor α) : Editing α κ :=
  let x := e.changes.foldl Editing.change ⟨l, .zero, callback.toList.map .started⟩
  { x with events := x.events ++ .note (x.list.commitRecord x.summary) :: callback.toList.map .finished }

def commit (l : SortedList α) (e : Editor α) : SortedList α × Summary :=
  let x := l.commitWith (none : Option Unit) e
  (x.list, x.summary)

def commitEvents (l : SortedList α) (callback : Option κ) (e : Editor α) : List (Event α κ) :=
  (l.commitWith callback e).events

def summary (l : SortedList α) (callback : Option κ) (text : α → String) : String :=
  Text.openSummary "SortedList"
    [("entries", Text.bracketed (l.entries.map text)), ("callback", toString callback.isSome)]

end TabDeck.SortedList
