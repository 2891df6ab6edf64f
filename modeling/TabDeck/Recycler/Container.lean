import TabDeck.Recycler.Adapter

namespace TabDeck.Recycler

abbrev Children (C V : Type) := C → List V

namespace Children

variable {A X C I V P : Type}

def empty : Children C V := fun _ => []

variable [DecidableEq C] [DecidableEq V]

def update (children : Children C V) (container : C) (f : List V → List V) : Children C V :=
  fun c => if c = container then f (children c) else children c

/-- A view is inserted at an index, or last if there are fewer views; a view that is taken away is taken away
wherever it stands. -/
def receive (children : Children C V) : Event A X C I V P → Children C V
  | .attach container view index => children.update container fun vs => vs.insertIdx (min index vs.length) view
  | .detach container view => children.update container fun vs => vs.filter (· != view)
  | .clear container => children.update container fun _ => []
  | _ => children

def receiveAll (children : Children C V) (events : List (Event A X C I V P)) : Children C V :=
  events.foldl receive children

end Children

end TabDeck.Recycler
