import Mathlib.Data.List.Induction
import TabDeck.Proofs.Binder.Move
/-!
Journals: runs of a binder that note every step with the load that it works for. Loads are numbered in the order
in which they are made.
-/
namespace TabDeck.Binder

variable {L K D T P : Type}

structure Entry (L K D T P : Type) where
  time : Nat
  /-- The load that the step works for. -/
  load : Option Nat
  before : Binder L K D T P
  move : Move L K T P

structure Journal (L K D T P : Type) where
  binder : Binder L K D T P
  loads : Nat
  requests : List (Nat × Request K T P)
  deliveries : List (Nat × Delivery K D T P)
  entries : List (Entry L K D T P)

def Move.request? : Move L K T P → Option Nat
  | .work i => some i
  | _ => none

def Move.delivery? : Move L K T P → Option Nat
  | .deliver i => some i
  | _ => none

namespace Journal

def ofCache (cache : Cache K D) : Journal L K D T P := ⟨Binder.ofCache cache [], 0, [], [], []⟩

def number (j : Journal L K D T P) : Move L K T P → Option Nat
  | .call (.load _ _ _) => some j.loads
  | .call _ => none
  | .work i => j.requests[i]?.map Prod.fst
  | .deliver i => j.deliveries[i]?.map Prod.fst

def entry (j : Journal L K D T P) (m : Move L K T P) : Entry L K D T P :=
  ⟨j.entries.length, j.number m, j.binder, m⟩

/-- A numbered queue after a step: the served place is left out, and what is new in the queue belongs to the load
of the step. -/
def requeue {α : Type} (q : List (Nat × α)) (served n : Option Nat) (before after : List α) : List (Nat × α) :=
  served.elim q q.eraseIdx ++ n.toList.flatMap fun n => (after.drop before.length).map (n, ·)

variable [DecidableEq L] [DecidableEq K]

def next (hooks : Hooks L K D T P) (survives : Bool) (j : Journal L K D T P) (m : Move L K T P) :
    Journal L K D T P :=
  let b := (Binder.move hooks survives j.binder m).binder
  { binder := b
    loads := match m with
      | .call (.load _ _ _) => j.loads + 1
      | _ => j.loads
    requests := requeue j.requests m.request? (j.number m) j.binder.requests b.requests
    deliveries := requeue j.deliveries m.delivery? (j.number m) j.binder.deliveries b.deliveries
    entries := j.entries ++ [j.entry m] }

end Journal

variable [DecidableEq L] [DecidableEq K]

def journal (hooks : Hooks L K D T P) (survives : Bool) (cache : Cache K D) (ms : List (Move L K T P)) :
    Journal L K D T P := ms.foldl (Journal.next hooks survives) (.ofCache cache)

variable {hooks : Hooks L K D T P} {survives : Bool} {cache : Cache K D}

theorem journal_concat (ms : List (Move L K T P)) (m : Move L K T P) :
    journal hooks survives cache (ms ++ [m]) = (journal hooks survives cache ms).next hooks survives m := by
  rw [journal, List.foldl_append]
  rfl

theorem journal_binder (ms : List (Move L K T P)) :
    (journal hooks survives cache ms).binder =
      ms.foldl (fun b m => (move hooks survives b m).binder) (ofCache cache []) := by
  induction ms using List.reverseRecOn with
  | nil => rfl
  | append_singleton ms m ih =>
    rw [journal_concat, List.foldl_append, ← ih]
    rfl

theorem next_entries (j : Journal L K D T P) (m : Move L K T P) :
    (j.next hooks survives m).entries = j.entries ++ [j.entry m] := rfl

theorem journal_length (ms : List (Move L K T P)) :
    (journal hooks survives cache ms).entries.length = ms.length := by
  induction ms using List.reverseRecOn with
  | nil => rfl
  | append_singleton ms m ih =>
    rw [journal_concat, next_entries, List.length_append, ih]
    simp

theorem journal_take (ms : List (Move L K T P)) (t : Nat) :
    (journal hooks survives cache (ms.take t)).entries = (journal hooks survives cache ms).entries.take t := by
  induction ms using List.reverseRecOn with
  | nil => simp [journal, Journal.ofCache]
  | append_singleton ms m ih =>
    by_cases h : t ≤ ms.length
    · rw [List.take_append_of_le_length h, ih, journal_concat]
      exact (List.take_append_of_le_length (by rwa [journal_length])).symm
    · have hlen : (ms ++ [m]).length ≤ t := by
        rw [List.length_append, List.length_singleton]
        omega
      rw [List.take_of_length_le hlen, List.take_of_length_le (by rwa [journal_length])]

theorem entry_of_mem {ms : List (Move L K T P)} {e : Entry L K D T P}
    (he : e ∈ (journal hooks survives cache ms).entries) :
    ms[e.time]? = some e.move ∧ e = (journal hooks survives cache (ms.take e.time)).entry e.move := by
  induction ms using List.reverseRecOn with
  | nil => exact absurd he List.not_mem_nil
  | append_singleton ms m ih =>
    rw [journal_concat] at he
    rcases List.mem_append.mp he with he | he
    · obtain ⟨hm, hj⟩ := ih he
      have hlt : e.time < ms.length := (List.getElem?_eq_some_iff.mp hm).1
      rw [List.getElem?_append_left hlt, List.take_append_of_le_length (Nat.le_of_lt hlt)]
      exact ⟨hm, hj⟩
    · obtain rfl := List.mem_singleton.mp he
      have ht : ((journal hooks survives cache ms).entry m).time = ms.length := journal_length ms
      rw [ht, List.take_left]
      exact ⟨List.getElem?_concat_length, rfl⟩

namespace Journal

def own (j : Journal L K D T P) (n : Nat) : List (Entry L K D T P) := j.entries.filter fun e => e.load = some n

omit [DecidableEq L] [DecidableEq K] in
theorem mem_own {j : Journal L K D T P} {n : Nat} {e : Entry L K D T P} :
    e ∈ j.own n ↔ e ∈ j.entries ∧ e.load = some n := by
  simp [own]

theorem own_next_of_eq {j : Journal L K D T P} {m : Move L K T P} {n : Nat} (h : j.number m = some n) :
    (j.next hooks survives m).own n = j.own n ++ [j.entry m] := by
  have he : (j.entry m).load = some n := h
  rw [own, next_entries, List.filter_append, List.filter_cons_of_pos (by simpa using he)]
  rfl

theorem own_next_of_ne {j : Journal L K D T P} {m : Move L K T P} {n : Nat} (h : j.number m ≠ some n) :
    (j.next hooks survives m).own n = j.own n := by
  have he : (j.entry m).load ≠ some n := h
  rw [own, next_entries, List.filter_append, List.filter_cons_of_neg (by simpa using he), List.filter_nil,
    List.append_nil]
  rfl

end Journal

end TabDeck.Binder
