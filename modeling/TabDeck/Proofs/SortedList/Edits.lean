import TabDeck.Proofs.SortedList.Reference
import TabDeck.SortedList.Editor
/-!
What an editor collects from a sequence of edits, and what a commit makes of it.
-/
namespace TabDeck.SortedList

variable {α κ : Type}

namespace Edit

def additions : Edit α → List α
  | .add a => [a]
  | .addAll as => as
  | .remove _ | .removeAllOf _ | .replaceAll _ | .removeAll => []

def removals : Edit α → List α
  | .remove a => [a]
  | .removeAllOf as => as
  | .add _ | .addAll _ | .replaceAll _ | .removeAll => []

def replacement? : Edit α → Option (List α)
  | .replaceAll as => some as
  | .add _ | .addAll _ | .remove _ | .removeAllOf _ | .removeAll => none

def clears : Edit α → Bool
  | .removeAll => true
  | .add _ | .addAll _ | .remove _ | .removeAllOf _ | .replaceAll _ => false

end Edit

/-- Sequences of edits that differ at most in how edits of different kinds are interleaved, in how additions and
removals are grouped, and in replacements that another one follows. -/
structure Alike (edits edits' : List (Edit α)) : Prop where
  additions : edits.flatMap Edit.additions = edits'.flatMap Edit.additions
  removals : edits.flatMap Edit.removals = edits'.flatMap Edit.removals
  replacement : (edits.filterMap Edit.replacement?).getLast? = (edits'.filterMap Edit.replacement?).getLast?
  clears : edits.any Edit.clears = edits'.any Edit.clears

namespace Event

def isCall : Event α κ → Bool
  | .started _ | .finished _ => true
  | .change _ | .note _ => false

def change? : Event α κ → Option (Change α)
  | .change c => some c
  | .started _ | .note _ | .finished _ => none

end Event

structure Bracketed (callback : Option κ) (events : List (Event α κ)) : Prop where
  calls : events.filter Event.isCall = callback.toList.flatMap fun c => [.started c, .finished c]
  between (c : κ) (hc : callback = some c) (past after : List (Event α κ)) (change : Change α)
    (h : events = past ++ .change change :: after) : .started c ∈ past ∧ .finished c ∈ after

namespace Editor

theorem foldl_push (e : Editor α) (edits : List (Edit α)) :
    edits.foldl push e =
      ⟨e.additions ++ edits.flatMap Edit.additions, e.removals ++ edits.flatMap Edit.removals,
        (edits.filterMap Edit.replacement?).getLast?.or e.replacement, e.clearing || edits.any Edit.clears⟩ := by
  induction edits generalizing e with
  | nil => simp
  | cons edit edits ih =>
    rw [List.foldl_cons, ih]
    cases edit with
    | replaceAll as => simp [push, Edit.additions, Edit.removals, Edit.replacement?, Edit.clears, List.getLast?_cons]
    | add | addAll | remove | removeAllOf | removeAll =>
      simp [push, Edit.additions, Edit.removals, Edit.replacement?, Edit.clears]

theorem ofEdits_eq (edits : List (Edit α)) :
    ofEdits edits = ⟨edits.flatMap Edit.additions, edits.flatMap Edit.removals,
      (edits.filterMap Edit.replacement?).getLast?, edits.any Edit.clears⟩ := by
  simp [ofEdits, foldl_push, empty]

theorem ofEdits_alike {edits edits' : List (Edit α)} (h : Alike edits edits') : ofEdits edits = ofEdits edits' := by
  rw [ofEdits_eq, ofEdits_eq, h.additions, h.removals, h.replacement, h.clears]

end Editor

section Events

variable {c : κ} {cs : List (Change α)}

theorem filter_isCall_changes : (cs.map (.change : Change α → Event α κ)).filter Event.isCall = [] := by
  rw [List.filter_map, List.map_eq_nil_iff, List.filter_eq_nil_iff]
  exact fun c _ => Bool.false_ne_true

theorem filterMap_change?_changes : (cs.map (.change : Change α → Event α κ)).filterMap Event.change? = cs := by
  rw [List.filterMap_map]
  exact List.filterMap_some

end Events

section Commit

variable [Model α]

def each (act : SortedList α → α → SortedList α × Summary) (x : SortedList α × Summary) (models : List α) :
    SortedList α × Summary :=
  models.foldl (fun x a => ((act x.1 a).1, x.2.add (act x.1 a).2)) x

/-- Clearing, a replacement, removals and additions, in this order. -/
def staged (l : SortedList α) (clearing : Bool) (replacement : Option (List α)) (removals additions : List α) :
    SortedList α × Summary :=
  let cleared := if clearing || replacement.isSome then l.clear else (l, .zero)
  let replaced := each insert cleared (replacement.getD [])
  let pruned := each remove replaced removals
  each insert pruned additions

variable {callback : Option κ}

theorem foldl_eq_changeAll (x : SortedList α × Summary) (cs : List (Change α)) :
    cs.foldl (fun x c => ((x.1.change c).1, x.2.add (x.1.change c).2)) x =
      ((x.1.changeAll cs).1, x.2.add (x.1.changeAll cs).2) := by
  induction cs generalizing x with
  | nil => simp [changeAll, Summary.add, Summary.zero]
  | cons c cs ih => simp [ih, changeAll, Summary.add_assoc]

theorem changeAll_changes (l : SortedList α) (e : Editor α) :
    l.changeAll e.changes = l.staged e.clearing e.replacement e.removals e.additions := by
  have hzero (s : Summary) : Summary.zero.add s = s := by simp [Summary.add, Summary.zero]
  have hclear : (l.clear.1.clear.1, l.clear.2.add l.clear.1.clear.2) = l.clear := rfl
  have hfold := foldl_eq_changeAll (l, .zero) e.changes
  rw [hzero] at hfold
  refine hfold.symm.trans ?_
  obtain ⟨additions, removals, replacement, clearing⟩ := e
  -- with a replacement there is nothing left for a second clearing
  cases clearing <;> cases replacement <;>
    simp [staged, each, Editor.changes, change, List.foldl_append, List.foldl_map, hzero, hclear]

theorem bracketed_commitWith (l : SortedList α) (callback : Option κ) (e : Editor α) :
    Bracketed callback (l.commitWith callback e).events := by
  rw [commitWith_eq]
  constructor
  · cases callback <;> simp [List.filter_cons, filter_isCall_changes, Event.isCall]
  · rintro c rfl past after change h
    have hinner : ∃ inner : List (Event α κ),
        .started c :: (inner ++ [.finished c]) = past ++ .change change :: after :=
      ⟨e.changes.map .change ++ [.note ((l.commit e).1.commitRecord (l.commit e).2)], by simpa using h⟩
    obtain ⟨inner, h⟩ := hinner
    constructor
    · cases past with
      | nil => cases (List.cons.inj h).1
      | cons first past =>
        obtain ⟨rfl, -⟩ := List.cons.inj h
        exact List.mem_cons_self
    · rw [← List.cons_append] at h
      rcases List.eq_nil_or_concat after with rfl | ⟨after, last, rfl⟩
      · cases (List.append_inj' h rfl).2
      · rw [List.concat_eq_append] at h ⊢
        rw [← List.cons_append, ← List.append_assoc] at h
        cases (List.append_inj' h rfl).2
        exact List.mem_append_right _ List.mem_cons_self

theorem filterMap_change?_commitWith (l : SortedList α) (callback : Option κ) (e : Editor α) :
    (l.commitWith callback e).events.filterMap Event.change? = e.changes := by
  rw [commitWith_eq]
  simp only [List.filterMap_append, filterMap_change?_changes]
  cases callback <;> simp [List.filterMap_cons, Event.change?]

theorem commit_ofEdits (l : SortedList α) (edits : List (Edit α)) (callback : Option κ) :
    let x := l.commitWith callback (.ofEdits edits)
    l.commit (.ofEdits edits) = (x.list, x.summary) ∧
    (x.list, x.summary) = l.staged (edits.any Edit.clears) (edits.filterMap Edit.replacement?).getLast?
      (edits.flatMap Edit.removals) (edits.flatMap Edit.additions) ∧
    (∀ edits' : List (Edit α), Alike edits edits' → l.commitWith callback (.ofEdits edits') = x) ∧
    Bracketed callback x.events ∧
    l.changeAll (x.events.filterMap Event.change?) = (x.list, x.summary) := by
  intro x
  have hx : l.commit (.ofEdits edits) = (x.list, x.summary) := by simp only [x, commitWith_eq]
  refine ⟨hx, ?_, fun edits' h => ?_, bracketed_commitWith l callback _, ?_⟩
  · rw [← hx, commit_eq, changeAll_changes, Editor.ofEdits_eq]
  · rw [← Editor.ofEdits_alike h]
  · rw [← hx, filterMap_change?_commitWith, commit_eq]

end Commit

theorem commit_ofEdits_shuffled :
    let l : SortedList Row := ⟨compareOn Row.rank, [⟨1, 7⟩]⟩
    let edits := [.add ⟨1, 7⟩, .remove ⟨1, 7⟩, .replaceAll [⟨2, 5⟩], .add ⟨1, 3⟩, .replaceAll [⟨1, 7⟩, ⟨2, 7⟩],
      .removeAll]
    let edits' := [.removeAll, .replaceAll [⟨1, 7⟩, ⟨2, 7⟩], .removeAllOf [⟨1, 7⟩], .removeAll,
      .addAll [⟨1, 7⟩, ⟨1, 3⟩]]
    Alike edits edits' ∧ l.commitWith (some ()) (.ofEdits edits') = l.commitWith (some ()) (.ofEdits edits) ∧
      (l.commitWith (some ()) (.ofEdits edits')).summary = ⟨4, 2, 0⟩ := by
  intro l edits edits'
  have halike : Alike edits edits' := ⟨rfl, rfl, rfl, rfl⟩
  exact ⟨halike, (commit_ofEdits l edits (some ())).2.2.1 edits' halike, by decide +kernel⟩

end TabDeck.SortedList
