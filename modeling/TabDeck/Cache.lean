import TabDeck.Check.Argument
import TabDeck.Text.Basic
/-!
Caches of bounded size that drop the entry that was used least recently.
-/
namespace TabDeck

/-- The entries, the most recently used one first. -/
structure Cache (K D : Type) where
  capacity : Nat
  entries : List (K × D)
  capacity_pos : 0 < capacity

namespace Cache

variable {K D : Type}

def create (capacity : Nat) : Except IllegalArgument (Cache K D) :=
  if h : 0 < capacity then .ok ⟨capacity, [], h⟩
  else .error ⟨"The cache capacity must be at least 1"⟩

def size (c : Cache K D) : Nat := c.entries.length

def evictAll (c : Cache K D) : Cache K D := { c with entries := [] }

def summary (c : Cache K D) : String :=
  Text.summary "BoundedCache" [("len", toString c.size), ("capacity", toString c.capacity)]

variable [BEq K]

def peek? (c : Cache K D) (key : K) : Option D := c.entries.lookup key

def contains (c : Cache K D) (key : K) : Bool := (c.peek? key).isSome

def without (c : Cache K D) (key : K) : List (K × D) := c.entries.filter fun e => e.1 != key

def touch (c : Cache K D) (key : K) : Cache K D :=
  match c.peek? key with
  | some d => { c with entries := (key, d) :: c.without key }
  | none => c

def put (c : Cache K D) (key : K) (value : D) : Cache K D :=
  { c with entries := ((key, value) :: c.without key).take c.capacity }

def pop (c : Cache K D) (key : K) : Cache K D := { c with entries := c.without key }

inductive Op (K D : Type) where
  | put (key : K) (value : D)
  | get (key : K)
  | pop (key : K)
  | contains (key : K)
  | evictAll

def step (c : Cache K D) : Op K D → Cache K D
  | .put key value => c.put key value
  | .get key => c.touch key
  | .pop key => c.pop key
  | .contains _ => c
  | .evictAll => c.evictAll

def answer? (c : Cache K D) : Op K D → Option D
  | .put key _ => c.peek? key
  | .get key => c.peek? key
  | .pop key => c.peek? key
  | .contains _ => none
  | .evictAll => none

end Cache

end TabDeck
