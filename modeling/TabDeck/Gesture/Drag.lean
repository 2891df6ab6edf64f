import TabDeck.Display.Metrics
/-!
Drag gestures: pointer movement against a distance threshold. Movement in the plane and movement along
the drag axis are tracked side by side and share nothing but the threshold.
-/
namespace TabDeck.Gesture

structure Drag where
  threshold : Float32
  start : Option (Float32 × Float32)
  deltaX : Float32
  deltaY : Float32
  dragging : Bool
  positionStart : Option Float32
  dragDistance : Float32
  positionReached : Bool

namespace Drag

def ofThreshold (threshold : Float32) : Drag :=
  ⟨threshold, none, 0, 0, false, none, 0, false⟩

def create (threshold : Float32) : Except IllegalArgument Drag := do
  Check.isTrue threshold.isFinite "The threshold must be finite"
  let threshold ← Check.atLeast threshold 0 "The threshold must be at least 0"
  return ofThreshold threshold

def ofMetrics (m : Display.Metrics) : Drag := ofThreshold m.touchSlop

def reset (d : Drag) : Drag := ofThreshold d.threshold

def isReset (d : Drag) : Bool := d.start.isNone && d.positionStart.isNone

def length (dx dy : Float32) : Float32 := (dx * dx + dy * dy).sqrt

def distance (d : Drag) : Float32 := length d.deltaX d.deltaY

def update (d : Drag) (x y : Float32) : Drag :=
  let start := d.start.getD (x, y)
  let deltaX := x - start.1
  let deltaY := y - start.2
  { d with
    start := some start
    deltaX
    deltaY
    dragging := d.dragging || d.threshold < length deltaX deltaY }

def updatePosition (d : Drag) (position : Float32) : Drag :=
  let start := d.positionStart.getD position
  let distance := position - start
  let reached := d.positionReached || d.threshold < distance.abs
  { d with
    positionStart := some start
    positionReached := reached
    dragDistance := if reached then distance else d.dragDistance }

def isThresholdReached (d : Drag) : Bool := d.dragging || d.positionReached

inductive Move where
  | update (x y : Float32)
  | position (p : Float32)
  | reset

def step (d : Drag) : Move → Drag
  | .update x y => d.update x y
  | .position p => d.updatePosition p
  | .reset => d.reset

end Drag

end TabDeck.Gesture
