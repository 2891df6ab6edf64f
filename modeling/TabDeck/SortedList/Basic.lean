import TabDeck.Order
import TabDeck.Text.Basic
/-!
Lists that keep their entries in the order of a comparator. Entries that are equal to the comparator stay in
the order in which they came, and no two of them stand for the same thing.
-/
namespace TabDeck

class Model (α : Type) where
  isSame : α → α → Bool
  hasSameContent : α → α → Bool

structure SortedList (α : Type) where
  order : Comparator α
  entries : List α

namespace SortedList

variable {α : Type}

def create (order : Comparator α) : SortedList α := ⟨order, []⟩

def size (l : SortedList α) : Nat := l.entries.length

def equalRun (l : SortedList α) (a : α) : Nat × Nat :=
  let first := partitionPoint (fun e => l.order e a == .lt) l.entries
  (first, first + partitionPoint (fun e => l.order e a != .gt) (l.entries.drop first))

structure Summary where
  inserted : Nat
  removed : Nat
  /-- Replacements by another content. -/
  changed : Nat
  deriving DecidableEq

namespace Summary

def zero : Summary := ⟨0, 0, 0⟩

def add (s t : Summary) : Summary := ⟨s.inserted + t.inserted, s.removed + t.removed, s.changed + t.changed⟩

end Summary

variable [Model α]

def position? (l : SortedList α) (a : α) : Option Nat :=
  let (first, past) := l.equalRun a
  (((l.entries.take past).drop first).findIdx? fun e => Model.isSame e a).map (first + ·)

def insert (l : SortedList α) (a : α) : SortedList α × Summary :=
  match l.position? a with
  | some i =>
    let kept := l.entries[i]?.any fun e => Model.hasSameContent e a
    ({ l with entries := l.entries.set i a }, ⟨0, 0, if kept then 0 else 1⟩)
  | none => ({ l with entries := l.entries.insertIdx (l.equalRun a).2 a }, ⟨1, 0, 0⟩)

def remove (l : SortedList α) (a : α) : SortedList α × Summary :=
  match l.position? a with
  | some i => ({ l with entries := l.entries.eraseIdx i }, ⟨0, 1, 0⟩)
  | none => (l, .zero)

def clear (l : SortedList α) : SortedList α × Summary := ({ l with entries := [] }, ⟨0, l.size, 0⟩)

end SortedList

end TabDeck
