import Mathlib.Data.List.Induction
import TabDeck.Proofs.Session.Course

namespace TabDeck.Session

variable {X : Type}

def Event.lock? : Event X → Option Bool
  | .locked => some true
  | .unlocked => some false
  | _ => none

def lockCalls (events : List (Event X)) : List Bool := events.filterMap Event.lock?

theorem lockCalls_append (l r : List (Event X)) : lockCalls (l ++ r) = lockCalls l ++ lockCalls r :=
  List.filterMap_append

section Turns

def turns (k : Nat) (held : Bool) : List Bool :=
  (List.replicate k [true, false]).flatten ++ if held then [true] else []

theorem turns_take (k : Nat) : turns k false ++ [true] = turns k true := by
  simp [turns]

theorem turns_giveBack (k : Nat) : turns k true ++ [false] = turns (k + 1) false := by
  simp [turns, List.replicate_succ']

theorem turns_alternate (k : Nat) (held : Bool) : (false :: turns k held).IsChain (· ≠ ·) := by
  induction k with
  | zero => cases held <;> simp [turns]
  | succ k ih =>
    have hsucc : turns (k + 1) held = true :: false :: turns k held := by simp [turns, List.replicate_succ]
    rw [hsucc]
    apply List.IsChain.cons_cons (by decide)
    apply List.IsChain.cons_cons (by decide)
    exact ih

theorem getLast?_turns (k : Nat) (held : Bool) : (turns k held).getLast? = some true ↔ held = true := by
  cases held with
  | true => simp [← turns_take]
  | false =>
    cases k with
    | zero => simp [turns]
    | succ k => simp [← turns_giveBack]

end Turns

namespace Registry

section Step

variable {host : Nat → Parameter → String} {r : Registry X}

theorem Course.lockCalls {op : Op X} {t : Turn X Answer} (h : Course host r op t) :
    lockCalls t.events = if t.registry.lockHeld = r.lockHeld then [] else [t.registry.lockHeld] := by
  have hstopped : r.stoppedAll.lockHeld = r.lockHeld := (steady_finishAll r r.listed).lockHeld
  have hfinished : Session.lockCalls (r.finishAll r.listed).events = [] :=
    filterMap_finishAll (fun _ _ _ => rfl) r.listed
  cases h with
  | idle op answer events h hevents => exact (filterMap_silent (fun _ => rfl) rfl hevents).trans (if_pos rfl).symm
  | stopped note =>
    rw [lockCalls_append, hfinished]
    exact (if_pos hstopped).symm
  | shut op note note' hop =>
    rw [lockCalls_append, hfinished, farewell]
    cases hlock : r.lockHeld with
    | true => rfl
    | false => cases r.listed <;> rfl
  | locked op note hop h => simp [Session.lockCalls, Event.lock?, publish, locking, h]
  | unlocked op note hop h => simp [Session.lockCalls, Event.lock?, publish, locking, h]
  | _ => exact (if_pos rfl).symm

theorem step_unlocks {op : Op X} (hop : op = .shutdown ∨ op = .act .stop) :
    (r.step host op).registry.lockHeld = false := by
  have hshut : r.shutdown.registry.lockHeld = false := by
    rw [shutdown_eq]
    rfl
  rcases hop with rfl | rfl <;> exact hshut

end Step

theorem run_turns (host : Nat → Parameter → String) (ops : List (Op X)) :
    let t := empty.run host ops
    ∃ k, lockCalls t.events = turns k t.registry.lockHeld := by
  induction ops using List.reverseRecOn with
  | nil => exact ⟨0, rfl⟩
  | append_singleton ops op ih =>
    obtain ⟨k, hk⟩ := ih
    have hstep := (step_course host (empty.run host ops).registry op).lockCalls
    rw [run_concat]
    simp only [lockCalls_append, hk, hstep]
    cases (empty.run host ops).registry.lockHeld <;>
      cases ((empty.run host ops).registry.step host op).registry.lockHeld
    · exact ⟨k, List.append_nil _⟩
    · exact ⟨k, turns_take k⟩
    · exact ⟨k + 1, turns_giveBack k⟩
    · exact ⟨k, List.append_nil _⟩

theorem run_lockCalls (host : Nat → Parameter → String) (ops : List (Op X)) :
    let t := empty.run host ops
    (false :: lockCalls t.events).IsChain (· ≠ ·) ∧
      (t.registry.lockHeld = true ↔ (lockCalls t.events).getLast? = some true) ∧
      ∀ op, op = .shutdown ∨ op = .act .stop →
        ∃ k, lockCalls (empty.run host (ops ++ [op])).events = (List.replicate k [true, false]).flatten := by
  intro t
  obtain ⟨k, hk⟩ := run_turns host ops
  rw [hk]
  refine ⟨turns_alternate k _, (getLast?_turns k _).symm, ?_⟩
  intro op hop
  obtain ⟨k', hk'⟩ := run_turns host (ops ++ [op])
  have hfree : (empty.run host (ops ++ [op])).registry.lockHeld = false := by
    rw [run_concat]
    exact step_unlocks hop
  refine ⟨k', hk'.trans ?_⟩
  rw [hfree]
  exact List.append_nil _

end Registry

end TabDeck.Session
