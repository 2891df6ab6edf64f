import TabDeck.Log.Record
import TabDeck.Text.Basic
/-!
Helpers for views that may be absent. An absent view receives no call and measures nothing.
-/
namespace TabDeck.View

open TabDeck.Log (Record)

inductive Visibility where
  | visible
  | invisible
  | gone
  deriving DecidableEq

namespace Visibility

def default : Visibility := .visible

def name : Visibility → String
  | .visible => "Visible"
  | .invisible => "Invisible"
  | .gone => "Gone"

end Visibility

structure Margins where
  left : Int32
  top : Int32
  right : Int32
  bottom : Int32
  deriving DecidableEq

namespace Margins

def uniform (n : Int32) : Margins := ⟨n, n, n, n⟩

def default : Margins := uniform 0

def summary (m : Margins) : String :=
  Text.summary "Margins" [("left", toString m.left.toInt), ("top", toString m.top.toInt),
    ("right", toString m.right.toInt), ("bottom", toString m.bottom.toInt)]

end Margins

structure Node where
  width : Int32
  height : Int32
  supportsMargins : Bool
  attached : Bool

inductive Call where
  | visibility (v : Visibility)
  | enabled (b : Bool)
  | alpha (x : Float32)
  | margins (m : Margins)

def setVisible (view : Option Node) (visible : Bool) : List Call :=
  view.elim [] fun _ => [.visibility (if visible then .visible else .gone)]

def setEnabled (view : Option Node) (enabled : Bool) : List Call := view.elim [] fun _ => [.enabled enabled]

def clampAlpha (x : Float32) : Float32 :=
  let raised := if x < 0 then 0 else x
  if 1 < raised then 1 else raised

def setAlpha (view : Option Node) (x : Float32) : List Call :=
  view.elim [] fun _ => if x.isFinite then [.alpha (clampAlpha x)] else []

def detach (view : Option Node) : Option Node × Bool :=
  (view.map fun v => { v with attached := false }, view.any (·.attached))

def width (view : Option Node) : Int32 := view.elim 0 (·.width)

def height (view : Option Node) : Int32 := view.elim 0 (·.height)

def Node.setMargins (view : Node) (m : Margins) : List Call × Bool × List Record :=
  ([.margins m], view.supportsMargins,
    if view.supportsMargins then [] else [⟨.trace, "view layout does not support margins", []⟩])

end TabDeck.View
