import TabDeck.Log.Record
import TabDeck.State.Bundle
/-!
Adapters make the views of items, refresh them and dispose of them. What an adapter does may depend on a world
of its own, and change it.
-/
namespace TabDeck.Recycler

open TabDeck.Log (Record)
open TabDeck.State (Bundle)

structure Turn (S W Ev R : Type) where
  state : S
  world : W
  events : List Ev
  result : R

def Turn.map {S S' W Ev R R' : Type} (t : Turn S W Ev R) (f : S → S') (g : R → R') : Turn S' W Ev R' :=
  ⟨f t.state, t.world, t.events, g t.result⟩

/-- The calls that an adapter answers, for adapters `A`, host contexts `X`, containers `C`, items `I`,
views `V`, parameters `P` and errors `E`. -/
structure Hooks (W A X C I V P E : Type) where
  inflate : W → A → Option C → I → Nat → P → W × Except E V
  display : W → A → X → V → I → Bool → P → W × Except E Unit
  dispose : W → A → V → W
  save : W → A → V → I → Option Bundle
  restore : W → A → V → I → Bundle → W
  /-- The order in which a removal of all views visits them. -/
  drain : List (I × V) → List (I × V) := id
  drain_perm : ∀ l, (drain l).Perm l := by exact fun _ => .refl _

inductive Notice (I : Type) where
  | noAdapter (item : I)
  | inflated (item : I) (index active : Nat)
  | removed (item : I) (active : Nat)
  | removedAll (count : Nat)

def Notice.record {I : Type} (text : I → String) : Notice I → Record
  | .noAdapter item => ⟨.trace, "no adapter set; nothing inflated", [("item", text item)]⟩
  | .inflated item index active =>
    ⟨.trace, "view inflated", [("item", text item), ("index", toString index), ("active", toString active)]⟩
  | .removed item active => ⟨.trace, "view removed", [("item", text item), ("active", toString active)]⟩
  | .removedAll count => ⟨.trace, "all views removed", [("removed", toString count)]⟩

inductive Event (A X C I V P : Type) where
  | inflate (container : Option C) (item : I) (index : Nat) (params : P)
  | display (context : X) (view : V) (item : I) (inflated : Bool) (params : P)
  | dispose (adapter : A) (view : V)
  | save (view : V) (item : I)
  | restore (view : V) (item : I) (state : Bundle)
  | attach (container : C) (view : V) (index : Nat)
  | detach (container : C) (view : V)
  | clear (container : C)
  | note (n : Notice I)
  | log (r : Record)

structure Inflation (V : Type) where
  view : V
  inflated : Bool

end TabDeck.Recycler
