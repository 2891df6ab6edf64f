import TabDeck.View.Holders
import TabDeck.Proofs.Lookup
/-!
What scripts leave on the shelf of holders: for every view, the last word of a nest of scripts decides whether it has
one.
-/
namespace TabDeck.View

variable {C K H : Type}

inductive Mark (K : Type) where
  | made (key : K)
  | returned (key : K)
  | removed (key : K)
  | cleared
deriving DecidableEq

variable [DecidableEq K] {key target : K}

def Mark.says? (key : K) : Mark K → Option Bool
  | .made _ => none
  | .returned other => if other = key then some true else none
  | .removed other => if other = key then some false else none
  | .cleared => some false

def lastWord (key : K) (before : Bool) (marks : List (Mark K)) : Bool :=
  (marks.filterMap (Mark.says? key)).getLast?.getD before

mutual

def Holders.marks (s : Holders C K H) : Step K H → List (Mark K)
  | .withOrInsert key made making script =>
    match key.or s.current with
    | none => []
    | some key =>
      match s.holder? key with
      | some h => (s.takeOut key).runMarks (some h) script ++ [.returned key]
      | none =>
        let ready := (s.run none making).holders
        s.runMarks none making ++ .made key :: (ready.runMarks (some made) script ++ [.returned key])
  | .withHolder key script =>
    match s.holder? key with
    | none => []
    | some h => (s.takeOut key).runMarks (some h) script ++ [.returned key]
  | .remove key => [.removed key]
  | .clear => [.cleared]
  | .context | .setCurrent _ | .has _ | .summary | .edit _ => []

def Holders.runMarks (s : Holders C K H) (lent : Option H) : List (Step K H) → List (Mark K)
  | [] => []
  | step :: rest =>
    let first := s.step lent step
    s.marks step ++ first.holders.runMarks first.lent rest

end

def Step.lends? (s : Holders C K H) : Step K H → Option K
  | .withOrInsert key _ _ _ => key.or s.current
  | .withHolder key _ => if s.has key then some key else none
  | .context | .setCurrent _ | .has _ | .remove _ | .clear | .summary | .edit _ => none

section LastWord

variable {before : Bool} {marks more past after : List (Mark K)} {m : Mark K}

theorem lastWord_append : lastWord key before (marks ++ more) = lastWord key (lastWord key before marks) more := by
  rw [lastWord, List.filterMap_append, List.getLast?_append, Option.getD_or]
  rfl

theorem lastWord_made : lastWord key before (.made target :: marks) = lastWord key before marks := by
  rw [lastWord, List.filterMap_cons_none rfl]
  rfl

theorem lastWord_returned : lastWord key before (marks ++ [.returned target]) =
    if key = target then true else lastWord key before marks := by
  rw [lastWord_append]
  by_cases hkey : key = target
  · simp [lastWord, Mark.says?, hkey]
  · simp [lastWord, Mark.says?, hkey, Ne.symm hkey]

theorem lastWord_forgotten (hm : m.says? key = some false) (hafter : .returned key ∉ after) :
    lastWord key before (past ++ m :: after) = false := by
  have hall : ∀ b ∈ after.filterMap (Mark.says? key), b = false := by
    intro b hb
    obtain ⟨n, hn, hsays⟩ := List.mem_filterMap.mp hb
    cases n with
    | made => exact absurd hsays nofun
    | returned other =>
      have hother : other ≠ key := by
        rintro rfl
        exact hafter hn
      exact absurd hsays (by simp [Mark.says?, hother])
    | removed other => simp_all [Mark.says?]
    | cleared => simpa [Mark.says?] using hsays.symm
  rw [lastWord_append, lastWord, List.filterMap_cons_some hm, List.getLast?_cons, Option.getD_some]
  cases hlast : (after.filterMap (Mark.says? key)).getLast? with
  | none => rfl
  | some b => exact hall b (List.mem_of_getLast? hlast)

end LastWord

namespace Holders

variable {s : Holders C K H} {lent : Option H} {h : H}

theorem holder?_takeOut : (s.takeOut target).holder? key = if key = target then none else s.holder? key := by
  by_cases hkey : key = target
  · rw [if_pos hkey, hkey]
    exact lookup_filter_self s.shelf
  · rw [if_neg hkey]
    exact lookup_filter_of_ne hkey s.shelf

theorem holder?_put : (s.put target h).holder? key = if key = target then some h else s.holder? key := by
  by_cases hkey : key = target
  · rw [if_pos hkey, hkey]
    exact List.lookup_cons_self
  · rw [if_neg hkey]
    exact (lookup_cons_of_ne hkey).trans (lookup_filter_of_ne hkey s.shelf)

theorem has_takeOut : (s.takeOut target).has key = if key = target then false else s.has key := by
  rw [has, holder?_takeOut]
  split <;> rfl

theorem has_put : (s.put target h).has key = if key = target then true else s.has key := by
  rw [has, holder?_put]
  split <;> rfl

theorem takeOut_put : (s.put target h).takeOut target = s.takeOut target := by
  simp [put, takeOut]

theorem count_put : (s.put target h).count = ((s.put target h).takeOut target).count + 1 := by
  rw [takeOut_put]
  rfl

theorem has_putBack {used : Bench C K H (List (Reply C K H))} {making : Option (List (Reply C K H))}
    {inner before : Bool} {marks : List (Mark K)}
    (hused : used.holders.has key = lastWord key inner marks) (hinner : key ≠ target → inner = before) :
    (used.putBack lent target h making).holders.has key =
      lastWord key before (marks ++ [.returned target]) := by
  change (used.holders.put target _).has key = _
  rw [has_put, lastWord_returned]
  split
  · rfl
  · next hkey => rw [hused, hinner hkey]

mutual

theorem has_step (s : Holders C K H) (lent : Option H) (key : K) :
    (step : Step K H) → (s.step lent step).holders.has key = lastWord key (s.has key) (s.marks step)
  | .context | .setCurrent _ | .has _ | .summary | .edit _ => rfl
  | .remove target => by
    change (s.takeOut target).has key = _
    by_cases hkey : key = target
    · simp [has_takeOut, marks, lastWord, Mark.says?, hkey]
    · simp [has_takeOut, marks, lastWord, Mark.says?, hkey, Ne.symm hkey]
  | .clear => rfl
  | .withHolder target script => by
    cases hh : s.holder? target with
    | none =>
      simp only [Holders.step, marks, hh]
      rfl
    | some h =>
      simp only [Holders.step, marks, hh]
      apply has_putBack (has_run (s.takeOut target) (some h) key script)
      intro hkey
      rw [has_takeOut, if_neg hkey]
  | .withOrInsert named made making script => by
    cases hnamed : named.or s.current with
    | none =>
      simp only [Holders.step, marks, hnamed]
      rfl
    | some target =>
      cases hh : s.holder? target with
      | some h =>
        simp only [Holders.step, marks, hnamed, hh]
        apply has_putBack (has_run (s.takeOut target) (some h) key script)
        intro hkey
        rw [has_takeOut, if_neg hkey]
      | none =>
        simp only [Holders.step, marks, hnamed, hh]
        -- a holder that was left while this one was made is not taken out: the new one replaces it
        rw [lastWord_append, lastWord_made]
        apply has_putBack (has_run (s.run none making).holders (some made) key script)
        intro _
        exact has_run s none key making

theorem has_run (s : Holders C K H) (lent : Option H) (key : K) : (steps : List (Step K H)) →
    (s.run lent steps).holders.has key = lastWord key (s.has key) (s.runMarks lent steps)
  | [] => rfl
  | step :: rest => by
    rw [Holders.runMarks, lastWord_append, ← has_step s lent key step]
    exact has_run (s.step lent step).holders (s.step lent step).lent key rest

end

theorem has_run_forgotten {steps : List (Step K H)} {past after : List (Mark K)} {m : Mark K}
    (hmarks : s.runMarks lent steps = past ++ m :: after) (hm : m.says? key = some false)
    (hafter : .returned key ∉ after) : (s.run lent steps).holders.has key = false := by
  rw [has_run, hmarks, lastWord_forgotten hm hafter]

theorem exists_putBack {step : Step K H} (lent : Option H) (hlends : step.lends? s = some key) :
    ∃ used h making, s.step lent step = Bench.putBack used lent key h making := by
  cases step with
  | withOrInsert named made making script =>
    replace hlends : named.or s.current = some key := hlends
    cases hh : s.holder? key with
    | none =>
      simp only [Holders.step, hlends, hh]
      exact ⟨_, _, _, rfl⟩
    | some h =>
      simp only [Holders.step, hlends, hh]
      exact ⟨_, _, _, rfl⟩
  | withHolder target script =>
    obtain ⟨hhas, htarget⟩ := Option.ite_none_right_eq_some.mp hlends
    obtain rfl := Option.some.inj htarget
    obtain ⟨h, hh⟩ := Option.isSome_iff_exists.mp hhas
    simp only [Holders.step, hh]
    exact ⟨_, _, _, rfl⟩
  | context | setCurrent | has | remove | clear | summary | edit => exact absurd hlends nofun

theorem step_returned {step : Step K H} (hlends : step.lends? s = some key) :
    (∃ making answers h, (s.step lent step).result = .nested making (some (answers, h)) ∧
      (s.step lent step).holders.holder? key = some h) ∧
    (s.step lent step).holders.count = ((s.step lent step).holders.takeOut key).count + 1 ∧
    ∀ other, (s.step lent step).holders.has other = lastWord other (s.has other) (s.marks step) := by
  obtain ⟨used, h, making, hstep⟩ := exists_putBack lent hlends
  have hback : (s.step lent step).holders.holder? key = some (used.lent.getD h) := by
    rw [hstep]
    exact holder?_put.trans (if_pos rfl)
  refine ⟨⟨making, used.result, used.lent.getD h, ?_, hback⟩, ?_, fun other => has_step s lent other step⟩
  · rw [hstep]
    rfl
  · rw [hstep]
    exact count_put

theorem step_returned_removed :
    (Step.withOrInsert (some 1) 7 [] [.remove 1]).lends? (ofContext none : Holders Unit Nat Nat) = some 1 ∧
    ((ofContext none : Holders Unit Nat Nat).step none (.withOrInsert (some 1) 7 [] [.remove 1])).holders.count =
      (((ofContext none : Holders Unit Nat Nat).step none
        (.withOrInsert (some 1) 7 [] [.remove 1])).holders.takeOut 1).count + 1 :=
  ⟨rfl, (step_returned rfl).2.1⟩

/-- A holder that is removed during a call on its view stays away, unless a new one is made for the view. -/
def StaysAway (s : Holders C K H) (lent : Option H) (step : Step K H) (key : K) : Prop :=
  step.lends? s = some key →
  ∀ past m after, s.marks step = past ++ m :: after → m.says? key = some false → .made key ∉ after →
    (s.step lent step).holders.has key = false ∧
    (s.step lent step).holders.count = ((s.step lent step).holders.takeOut key).count

theorem not_staysAway_removed :
    ¬ StaysAway (ofContext none : Holders Unit Nat Nat) none (.withOrInsert (some 1) 7 [] [.remove 1]) 1 := by
  intro hstays
  obtain ⟨hhas, -⟩ := hstays rfl [.made 1] (.removed 1) [.returned 1] rfl rfl (by decide)
  exact absurd hhas (by decide)

end Holders

end TabDeck.View
