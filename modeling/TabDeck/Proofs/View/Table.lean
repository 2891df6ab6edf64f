import Mathlib.Data.Finmap
import TabDeck.Proofs.Lookup
import TabDeck.View.Holders
/-!
A finite map from views to holders as a reference: a script works on the holder of a view where it is, without taking
it out of the map. While it does, the view is out: nobody else sees its holder.
-/
namespace TabDeck.View

variable {C K H : Type}

@[ext]
structure Table (C K H : Type) where
  context : Option C
  current : Option K
  holders : Finmap fun _ : K => H

namespace Table

variable [DecidableEq K]

def seen? (t : Table C K H) (out : List K) (key : K) : Option H :=
  if key ∈ out then none else t.holders.lookup key

def count (t : Table C K H) (out : List K) : Nat := (t.holders.keys.filter (· ∉ out)).card

def summary (t : Table C K H) (out : List K) : String :=
  Text.summary "ViewHolderAdapter" [("has_context", toString t.context.isSome), ("holders", toString (t.count out))]

def set (t : Table C K H) (key : K) (h : H) : Table C K H := { t with holders := t.holders.insert key h }

def remove (t : Table C K H) (key : K) : Table C K H :=
  { t with holders := t.holders.erase key, current := if t.current = some key then none else t.current }

def clear (t : Table C K H) : Table C K H := { t with current := none, holders := ∅ }

def edit (t : Table C K H) (key : K) (f : H → H) : Table C K H :=
  { t with holders := (t.holders.lookup key).elim t.holders fun h => t.holders.insert key (f h) }

def used (key : K) (making : Option (List (Reply C K H))) (after : Table C K H × List (Reply C K H)) :
    Table C K H × Answer C K H :=
  (after.1, .nested making ((after.1.holders.lookup key).map (after.2, ·)))

mutual

/-- A step of a script that works on the holder of the view `lent`, while the views in `out` are out. -/
def step (t : Table C K H) (out : List K) (lent : Option K) : Step K H → Table C K H × Answer C K H
  | .context => (t, .context t.context)
  | .setCurrent key => ({ t with current := key }, .done)
  | .withOrInsert key made making script =>
    match key.or t.current with
    | none => (t, .nested none none)
    | some key =>
      match t.seen? out key with
      | some _ => used key none (t.run (key :: out) (some key) script)
      | none =>
        let ready := t.run out none making
        used key (some ready.2) ((ready.1.set key made).run (key :: out) (some key) script)
  | .withHolder key script =>
    match t.seen? out key with
    | none => (t, .nested none none)
    | some _ => used key none (t.run (key :: out) (some key) script)
  | .has key => (t, .flag (t.seen? out key).isSome)
  | .remove key => (t.remove key, .holder (t.seen? out key))
  | .clear => (t.clear, .done)
  | .summary => (t, .text (t.summary out))
  | .edit f =>
    let t' := lent.elim t (t.edit · f)
    (t', .holder (lent.bind t'.holders.lookup))

def run (t : Table C K H) (out : List K) (lent : Option K) : List (Step K H) → Table C K H × List (Reply C K H)
  | [] => (t, [])
  | step :: rest =>
    let first := t.step out lent step
    let others := first.1.run out lent rest
    (others.1, .mk first.2 (first.1.count out) first.1.current :: others.2)

end

section Lookup

variable {t : Table C K H} {out : List K} {key other : K} {h : H} {f : H → H}

theorem seen?_of_mem (hkey : key ∈ out) : t.seen? out key = none := if_pos hkey

theorem seen?_of_not_mem (hkey : key ∉ out) : t.seen? out key = t.holders.lookup key := if_neg hkey

theorem seen?_cons : t.seen? (key :: out) other = if other = key then none else t.seen? out other := by
  simp only [seen?, List.mem_cons]
  split_ifs <;> simp_all

theorem lookup_set : (t.set key h).holders.lookup other = if other = key then some h else t.holders.lookup other := by
  split
  · next hkey =>
    subst hkey
    exact Finmap.lookup_insert _
  · next hkey => exact Finmap.lookup_insert_of_ne _ hkey

theorem lookup_remove : (t.remove key).holders.lookup other = if other = key then none else t.holders.lookup other := by
  split
  · next hkey =>
    subst hkey
    exact Finmap.lookup_erase _ _
  · next hkey => exact Finmap.lookup_erase_ne hkey

theorem lookup_edit_self : (t.edit key f).holders.lookup key = (t.holders.lookup key).map f := by
  rw [edit]
  cases hh : t.holders.lookup key with
  | none => exact hh
  | some h => exact Finmap.lookup_insert _

theorem lookup_edit_of_ne (hkey : other ≠ key) : (t.edit key f).holders.lookup other = t.holders.lookup other := by
  rw [edit]
  cases t.holders.lookup key with
  | none => rfl
  | some h => exact Finmap.lookup_insert_of_ne _ hkey

end Lookup

end Table

namespace Holders

variable [DecidableEq K]

def table (s : Holders C K H) : Table C K H := ⟨s.context, s.current, (s.shelf.map Prod.toSigma).toFinmap⟩

theorem lookup_table (s : Holders C K H) (key : K) : s.table.holders.lookup key = s.holder? key :=
  (Finmap.dlookup_list_toFinmap key _).trans (dlookup_map_toSigma s.shelf key)

end Holders

end TabDeck.View
