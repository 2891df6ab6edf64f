import TabDeck.Text.Basic
/-!
Holders of views, kept under the key of their view. A holder is taken off its shelf while a script works on
it, so the script may act on the shelf itself; afterwards the holder is put back.
-/
namespace TabDeck.View

structure Holders (C K H : Type) where
  context : Option C
  current : Option K
  shelf : List (K × H)

namespace Holders

variable {C K H : Type}

def ofContext (context : Option C) : Holders C K H := ⟨context, none, []⟩

def count (s : Holders C K H) : Nat := s.shelf.length

def clear (s : Holders C K H) : Holders C K H := { s with current := none, shelf := [] }

def summary (s : Holders C K H) : String :=
  Text.summary "ViewHolderAdapter" [("has_context", toString s.context.isSome), ("holders", toString s.count)]

variable [DecidableEq K]

def holder? (s : Holders C K H) (key : K) : Option H := s.shelf.lookup key

def has (s : Holders C K H) (key : K) : Bool := (s.holder? key).isSome

def takeOut (s : Holders C K H) (key : K) : Holders C K H :=
  { s with shelf := s.shelf.filter fun e => e.1 != key }

def put (s : Holders C K H) (key : K) (h : H) : Holders C K H :=
  { s with shelf := (key, h) :: (s.takeOut key).shelf }

def remove (s : Holders C K H) (key : K) : Holders C K H :=
  { s.takeOut key with current := if s.current = some key then none else s.current }

end Holders

/-- What a script does with the holders. Scripts that make or use a holder are nested in it. -/
inductive Step (K H : Type) where
  | context
  | setCurrent (key : Option K)
  /-- Works on the holder of a view, the current one if none is named. If the view has no holder,
  `making` runs and `made` becomes its holder. -/
  | withOrInsert (key : Option K) (made : H) (making script : List (Step K H))
  | withHolder (key : K) (script : List (Step K H))
  | has (key : K)
  | remove (key : K)
  | clear
  | summary
  | edit (f : H → H)

mutual

inductive Answer (C K H : Type) where
  | done
  | context (c : Option C)
  | flag (b : Bool)
  | holder (h : Option H)
  | text (s : String)
  | nested (making : Option (List (Reply C K H))) (use : Option (List (Reply C K H) × H))

inductive Reply (C K H : Type) where
  | mk (answer : Answer C K H) (count : Nat) (current : Option K)

end

structure Bench (C K H R : Type) where
  holders : Holders C K H
  lent : Option H
  result : R

variable {C K H : Type} [DecidableEq K]

def Bench.putBack (used : Bench C K H (List (Reply C K H))) (lent : Option H) (key : K) (h : H)
    (making : Option (List (Reply C K H))) : Bench C K H (Answer C K H) :=
  let changed := used.lent.getD h
  ⟨used.holders.put key changed, lent, .nested making (some (used.result, changed))⟩

mutual

def Holders.step (s : Holders C K H) (lent : Option H) : Step K H → Bench C K H (Answer C K H)
  | .context => ⟨s, lent, .context s.context⟩
  | .setCurrent key => ⟨{ s with current := key }, lent, .done⟩
  | .withOrInsert key made making script =>
    match key.or s.current with
    | none => ⟨s, lent, .nested none none⟩
    | some key =>
      match s.holder? key with
      | some h => ((s.takeOut key).run (some h) script).putBack lent key h none
      | none =>
        let making := s.run none making
        (making.holders.run (some made) script).putBack lent key made (some making.result)
  | .withHolder key script =>
    match s.holder? key with
    | none => ⟨s, lent, .nested none none⟩
    | some h => ((s.takeOut key).run (some h) script).putBack lent key h none
  | .has key => ⟨s, lent, .flag (s.has key)⟩
  | .remove key => ⟨s.remove key, lent, .holder (s.holder? key)⟩
  | .clear => ⟨s.clear, lent, .done⟩
  | .summary => ⟨s, lent, .text s.summary⟩
  | .edit f => ⟨s, lent.map f, .holder (lent.map f)⟩

def Holders.run (s : Holders C K H) (lent : Option H) : List (Step K H) → Bench C K H (List (Reply C K H))
  | [] => ⟨s, lent, []⟩
  | step :: rest =>
    let first := s.step lent step
    let others := first.holders.run first.lent rest
    ⟨others.holders, others.lent,
      .mk first.result first.holders.count first.holders.current :: others.result⟩

end

end TabDeck.View
