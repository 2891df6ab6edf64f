import Mathlib.Data.Finmap
import TabDeck.Proofs.Dictionary
import TabDeck.Proofs.Json.Shape
import TabDeck.Proofs.Text.ByteOrder
import TabDeck.State.Bundle
/-!
A finite map as a reference for bundles.
-/
namespace TabDeck.State.Bundle

open TabDeck.Json (asWord? asSigned? asBool? asString? asChar? asUnit? asOption? ofInteger? ofChar ofOption)

inductive Op : Type 1 where
  | put (key : String) (data : Option Json)
  | remove (key : String)
  | get {α : Type} (key : String) (read : Json → Option α)

def step (b : Bundle) : Op → Bundle
  | .put key data =>
    match b.put key data with
    | .ok b' => b'
    | .error _ => b
  | .remove key => b.remove key
  | .get _ _ => b

def run (ops : List Op) : Bundle := ops.foldl step empty

inductive Edit where
  | set (key : String) (value : Json)
  | erase (key : String)

namespace Edit

def key : Edit → String
  | .set key _ => key
  | .erase key => key

def apply (m : Finmap fun _ : String => Json) : Edit → Finmap fun _ : String => Json
  | .set key value => m.insert key value
  | .erase key => m.erase key

end Edit

def Op.edit? : Op → Option Edit
  | .put key data => data.map (.set key)
  | .remove key => some (.erase key)
  | .get _ _ => none

def reference (ops : List Op) : Finmap fun _ : String => Json := (ops.filterMap Op.edit?).foldl Edit.apply ∅

structure Represents (b : Bundle) (m : Finmap fun _ : String => Json) : Prop where
  value? (key : String) : b.value? key = m.lookup key
  keys (key : String) : key ∈ b.keys ↔ key ∈ m
  ascending : b.keys.Pairwise fun k k' => Text.bytes k < Text.bytes k'
  size : b.size = m.keys.card

/-- No later operation that succeeds puts something else under the key or removes it. -/
def LastPut (ops : List Op) (key : String) (value : Json) : Prop :=
  ∃ before after, ops = before ++ .put key (some value) :: after ∧
    ∀ op ∈ after, ∀ edit, op.edit? = some edit → edit.key ≠ key

structure Recalls (b : Bundle) (key : String) (value : Json) : Prop where
  string (s : String) : value = .str s → b.get key asString? = .ok (some s)
  bool (v : Bool) : value = .bool v → b.get key asBool? = .ok (some v)
  char (c : Char) : value = ofChar c → b.get key asChar? = .ok (some c)
  unit : value = .null → b.get key asUnit? = .ok (some ())
  signed? (n : Option Int) : (∀ i ∈ n, -2 ^ 63 ≤ i ∧ i < 2 ^ 63) → value = ofOption (n.map .int) →
    b.get key (asOption? (asSigned? 64)) = .ok (some n)
  word? (n : Option Int) : (∀ i ∈ n, 0 ≤ i ∧ i < 2 ^ 64) → value = ofOption (n.map .int) →
    b.get key (asOption? (asWord? 64)) = .ok (some n)
  word (n : Int) (bits : Nat) : ofInteger? n = some value →
    (0 ≤ n ∧ n < 2 ^ bits → b.get key (asWord? bits) = .ok (some n)) ∧
      (¬(0 ≤ n ∧ n < 2 ^ bits) → ∃ detail : String, b.get key (asWord? bits) = .error (.unreadable s!"{key}: {detail}"))
  signed (n : Int) (bits : Nat) : ofInteger? n = some value →
    (-2 ^ (bits - 1) ≤ n ∧ n < 2 ^ (bits - 1) → b.get key (asSigned? bits) = .ok (some n)) ∧
      (¬(-2 ^ (bits - 1) ≤ n ∧ n < 2 ^ (bits - 1)) →
        ∃ detail : String, b.get key (asSigned? bits) = .error (.unreadable s!"{key}: {detail}"))

section Values

variable {b b' : Bundle} {key other : String} {j : Json} {α : Type} {read : Json → Option α}

theorem put_eq_error_iff {data : Option Json} :
    (∃ message, b.put key data = .error (.unwritable message)) ↔ data = none := by
  cases data <;> simp [put]

theorem value?_insert_self : value? ⟨Dictionary.insert key j b.entries⟩ key = some j :=
  Dictionary.lookup_insert_self b.entries

theorem value?_insert_of_ne (hne : other ≠ key) :
    value? ⟨Dictionary.insert key j b.entries⟩ other = b.value? other :=
  Dictionary.lookup_insert_of_ne hne b.entries

theorem value?_put_of_ne {data : Option Json} (h : b.put key data = .ok b') (hne : other ≠ key) :
    b'.value? other = b.value? other := by
  cases data with
  | none => cases h
  | some j =>
    obtain rfl := Except.ok.inj h
    exact value?_insert_of_ne hne

theorem value?_remove_self : (b.remove key).value? key = none := lookup_filter_self b.entries

theorem value?_remove_of_ne (hne : other ≠ key) : (b.remove key).value? other = b.value? other :=
  lookup_filter_of_ne hne b.entries

theorem get_eq_none_iff : b.get key read = .ok none ↔ b.value? key = none := by
  rw [get]
  cases b.value? key with
  | none => simp
  | some j => cases hread : read j <;> simp [hread]

theorem get_eq_some (h : b.value? key = some j) {a : α} (hread : read j = some a) : b.get key read = .ok (some a) := by
  simp only [get, h, hread]

theorem get_eq_error (h : b.value? key = some j) (hread : read j = none) :
    ∃ detail : String, b.get key read = .error (.unreadable s!"{key}: {detail}") := by
  have htext : key ++ ": another kind of value" = key ++ ": " ++ "another kind of value" := by
    rw [String.append_assoc]
    rfl
  refine ⟨"another kind of value", ?_⟩
  simp only [get, h, hread]
  exact congrArg (Except.error ∘ StateError.unreadable) htext

theorem get_range {p : Prop} [Decidable p] {a : α} (h : b.value? key = some j)
    (hread : read j = if p then some a else none) : (p → b.get key read = .ok (some a)) ∧
      (¬p → ∃ detail : String, b.get key read = .error (.unreadable s!"{key}: {detail}")) :=
  ⟨fun hp => get_eq_some h (hread.trans (if_pos hp)), fun hp => get_eq_error h (hread.trans (if_neg hp))⟩

theorem recalls_of_value? (h : b.value? key = some j) : b.Recalls key j where
  string s hs := get_eq_some h (hs ▸ rfl)
  bool v hv := get_eq_some h (hv ▸ rfl)
  char c hc := get_eq_some h (hc ▸ Json.asChar?_ofChar c)
  unit hu := get_eq_some h (hu ▸ rfl)
  signed? n hn hj := by
    refine get_eq_some h (hj ▸ Json.asOption?_ofOption fun i hi => ⟨nofun, ?_⟩)
    rw [Json.asSigned?_int, if_pos (hn i hi)]
  word? n hn hj := by
    refine get_eq_some h (hj ▸ Json.asOption?_ofOption fun i hi => ⟨nofun, ?_⟩)
    rw [Json.asWord?_int, if_pos (hn i hi)]
  word n bits hj := get_range h (Json.eq_int_of_ofInteger? hj ▸ Json.asWord?_int bits n)
  signed n bits hj := get_range h (Json.eq_int_of_ofInteger? hj ▸ Json.asSigned?_int bits n)

end Values

section Run

variable {b : Bundle} {m : Finmap fun _ : String => Json} {op : Op} {ops : List Op} {key : String} {j : Json}

theorem step_of_edit?_eq_none (h : op.edit? = none) : b.step op = b := by
  cases op with
  | put key data =>
    obtain rfl : data = none := Option.map_eq_none_iff.mp h
    rfl
  | remove key => cases h
  | get key read => rfl

theorem value?_step_of_ne (h : ∀ edit, op.edit? = some edit → edit.key ≠ key) :
    (b.step op).value? key = b.value? key := by
  cases op with
  | put other data =>
    cases data with
    | none => rfl
    | some j => exact value?_insert_of_ne (h _ rfl).symm
  | remove other => exact value?_remove_of_ne (h _ rfl).symm
  | get other read => rfl

theorem value?_foldl_step_of_ne (h : ∀ op ∈ ops, ∀ edit, op.edit? = some edit → edit.key ≠ key) :
    (ops.foldl step b).value? key = b.value? key := by
  induction ops generalizing b with
  | nil => rfl
  | cons op ops ih =>
    obtain ⟨hop, hops⟩ := List.forall_mem_cons.mp h
    exact (ih hops).trans (value?_step_of_ne hop)

theorem value?_of_lastPut (h : LastPut ops key j) : (run ops).value? key = some j := by
  obtain ⟨before, after, rfl, hafter⟩ := h
  rw [run, List.foldl_append, List.foldl_cons, value?_foldl_step_of_ne hafter]
  exact value?_insert_self

theorem foldl_step_filter (b : Bundle) (ops : List Op) :
    ops.foldl step b = (ops.filter fun op => op.edit?.isSome).foldl step b := by
  induction ops generalizing b with
  | nil => rfl
  | cons op ops ih =>
    rw [List.foldl_cons, ih]
    cases hop : op.edit? with
    | none => rw [List.filter_cons_of_neg (by simp [hop]), step_of_edit?_eq_none hop]
    | some edit => rw [List.filter_cons_of_pos (by simp [hop]), List.foldl_cons]

structure Agrees (b : Bundle) (m : Finmap fun _ : String => Json) : Prop where
  value? (key : String) : b.value? key = m.lookup key
  ascending : Dictionary.Ascending b.entries

theorem Agrees.set (h : b.Agrees m) (key : String) (j : Json) :
    Agrees ⟨Dictionary.insert key j b.entries⟩ (m.insert key j) := by
  refine ⟨fun other => ?_, Dictionary.ascending_insert key j h.ascending⟩
  by_cases hkey : other = key
  · rw [hkey, Finmap.lookup_insert]
    exact value?_insert_self
  · rw [Finmap.lookup_insert_of_ne _ hkey, ← h.value?]
    exact value?_insert_of_ne hkey

theorem Agrees.erase (h : b.Agrees m) (key : String) : (b.remove key).Agrees (m.erase key) := by
  refine ⟨fun other => ?_, h.ascending.filter _⟩
  by_cases hkey : other = key
  · rw [hkey, Finmap.lookup_erase, value?_remove_self]
  · rw [Finmap.lookup_erase_ne hkey, value?_remove_of_ne hkey, h.value?]

theorem Agrees.step (h : b.Agrees m) (op : Op) : (b.step op).Agrees (op.edit?.elim m (·.apply m)) := by
  cases op with
  | put key data =>
    cases data with
    | none => exact h
    | some j => exact h.set key j
  | remove key => exact h.erase key
  | get key read => exact h

theorem Agrees.run (h : b.Agrees m) (ops : List Op) :
    (ops.foldl Bundle.step b).Agrees ((ops.filterMap Op.edit?).foldl Edit.apply m) := by
  induction ops generalizing b m with
  | nil => exact h
  | cons op ops ih =>
    have hnext := ih (h.step op)
    rw [List.foldl_cons, List.filterMap_cons]
    cases hop : op.edit? with
    | none => rwa [hop] at hnext
    | some edit => rwa [hop] at hnext

theorem run_agrees (ops : List Op) : (run ops).Agrees (reference ops) :=
  Agrees.run (b := empty) (m := ∅) ⟨fun _ => rfl, .nil⟩ ops

theorem mem_keys_iff : key ∈ b.keys ↔ (b.value? key).isSome = true := isSome_lookup_iff.symm

theorem Agrees.represents (h : b.Agrees m) : b.Represents m := by
  have hmem (key : String) : key ∈ b.keys ↔ key ∈ m := by
    rw [mem_keys_iff, h.value?, Finmap.lookup_isSome]
  have hascending : b.keys.Pairwise fun k k' => Text.bytes k < Text.bytes k' := by
    refine List.pairwise_map.mpr (h.ascending.imp fun hlt => ?_)
    exact Text.lt_iff_bytes_lt.mp (compareOfLessAndEq_eq_lt.mp hlt)
  have hkeys : b.keys.toFinset = m.keys := by
    ext key
    rw [List.mem_toFinset, hmem, Finmap.mem_keys]
  have hnodup : b.keys.Nodup := by
    refine List.Pairwise.imp ?_ hascending
    rintro k _ hlt rfl
    exact List.lt_irrefl _ hlt
  refine ⟨h.value?, hmem, hascending, ?_⟩
  rw [← hkeys, List.toFinset_card_of_nodup hnodup]
  exact (List.length_map _).symm

end Run

theorem run_reference (ops : List Op) :
    (run ops).Represents (reference ops) ∧
    run ops = run (ops.filter fun op => op.edit?.isSome) ∧
    (∀ key data, (∃ message, (run ops).put key data = .error (.unwritable message)) ↔ data = none) ∧
    (∀ key data b, (run ops).put key data = .ok b → ∀ other ≠ key, b.value? other = (run ops).value? other) ∧
    (∀ {α : Type} key (read : Json → Option α), (run ops).get key read = .ok none ↔ key ∉ reference ops) ∧
    (∀ n, ofInteger? n = none ↔ ¬(0 ≤ n ∧ n < 2 ^ 64) ∧ ¬(-2 ^ 63 ≤ n ∧ n < 2 ^ 63)) ∧
    ∀ key value, LastPut ops key value → (run ops).Recalls key value := by
  have hrepresents := (run_agrees ops).represents
  refine ⟨hrepresents, foldl_step_filter empty ops, fun _ _ => put_eq_error_iff,
    fun _ _ _ h _ hne => value?_put_of_ne h hne, ?_, fun _ => Json.ofInteger?_eq_none_iff,
    fun _ _ h => recalls_of_value? (value?_of_lastPut h)⟩
  intro α key read
  rw [get_eq_none_iff, hrepresents.value?, Finmap.lookup_eq_none]

theorem run_reference_mixed :
    let ops : List Op := [.put "b" (ofInteger? 300), .put "é" (some (.str "x")), .get "b" (asWord? 8),
      .put "b" (ofInteger? (2 ^ 64)), .put "~" (some (ofOption (some (.int (-7))))), .put "a" (some .null), .remove "a"]
    let b := run ops
    b.keys = ["b", "~", "é"] ∧ (reference ops).keys.card = 3 ∧ b.get "a" asUnit? = .ok none ∧
      LastPut ops "b" (.int 300) ∧ b.get "b" (asSigned? 32) = .ok (some 300) ∧
      (∃ detail, b.get "b" (asWord? 8) = .error (.unreadable ("b" ++ ": " ++ detail))) ∧
      LastPut ops "~" (.int (-7)) ∧ b.get "~" (asOption? (asSigned? 64)) = .ok (some (some (-7))) := by
  intro ops b
  obtain ⟨hrepresents, -, -, -, hmissing, hunwritable, hrecalls⟩ := run_reference ops
  have hkeys : b.keys = ["b", "~", "é"] := by decide +kernel
  have hlarge : ofInteger? 18446744073709551616 = none := (hunwritable _).mpr (by decide)
  have hnumber : LastPut ops "b" (.int 300) := by
    refine ⟨[], ops.tail, rfl, ?_⟩
    simp [ops, Op.edit?, Edit.key, hlarge]
  have hoptional : LastPut ops "~" (.int (-7)) := by
    refine ⟨ops.take 4, ops.drop 5, rfl, ?_⟩
    simp [ops, Op.edit?, Edit.key]
  refine ⟨hkeys, hrepresents.size.symm.trans (congrArg List.length hkeys), (hmissing "a" asUnit?).mpr ?_, hnumber,
    ((hrecalls _ _ hnumber).signed 300 32 rfl).1 (by decide), ((hrecalls _ _ hnumber).word 300 8 rfl).2 (by decide),
    hoptional, (hrecalls _ _ hoptional).signed? (some (-7)) (by decide) rfl⟩
  rw [← hrepresents.keys, hkeys]
  decide

end TabDeck.State.Bundle
