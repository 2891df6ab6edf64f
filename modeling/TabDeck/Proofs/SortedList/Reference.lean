import TabDeck.SortedList.Editor
import TabDeck.Proofs.SortedList.Runs
/-!
Sorted lists against a naive list that keeps its models in the order in which they came: after any commits the
entries are the stable sort of the naive list.
-/
namespace TabDeck.SortedList

open Std

variable {α : Type} [Model α]

def changeAll (l : SortedList α) : List (Change α) → SortedList α × Summary
  | [] => (l, .zero)
  | c :: rest =>
    let (changed, s) := l.change c
    let (final, t) := changed.changeAll rest
    (final, s.add t)

section Editing

variable {κ : Type}

omit [Model α] in
theorem Summary.add_assoc (s t u : Summary) : (s.add t).add u = s.add (t.add u) := by
  simp only [add, Nat.add_assoc]

theorem foldl_change (x : Editing α κ) (cs : List (Change α)) :
    cs.foldl Editing.change x =
      ⟨(x.list.changeAll cs).1, x.summary.add (x.list.changeAll cs).2, x.events ++ cs.map .change⟩ := by
  induction cs generalizing x with
  | nil => simp [changeAll, Summary.add, Summary.zero]
  | cons c cs ih => simp [ih, Editing.change, changeAll, Summary.add_assoc]

theorem commitWith_eq (l : SortedList α) (callback : Option κ) (e : Editor α) :
    l.commitWith callback e =
      ⟨(l.commit e).1, (l.commit e).2, callback.toList.map .started ++ e.changes.map .change ++
        .note ((l.commit e).1.commitRecord (l.commit e).2) :: callback.toList.map .finished⟩ := by
  simp only [commit, commitWith, foldl_change]

theorem commit_eq (l : SortedList α) (e : Editor α) : l.commit e = l.changeAll e.changes := by
  simp only [commit, commitWith, foldl_change, Summary.add, Summary.zero, Nat.zero_add]

end Editing

def commitAll (l : SortedList α) (es : List (Editor α)) : SortedList α := es.foldl (fun l e => (l.commit e).1) l

def naiveCommit (order : Comparator α) (l : List α) (e : Editor α) : List α :=
  let emptied := if e.clearing || e.replacement.isSome then [] else l
  let replaced := (e.replacement.getD []).foldl (fun l a => putTwin order a l) emptied
  let pruned := e.removals.foldl (fun l a => eraseTwin order a l) replaced
  e.additions.foldl (fun l a => putTwin order a l) pruned

def naiveCommitAll (order : Comparator α) (l : List α) (es : List (Editor α)) : List α :=
  es.foldl (naiveCommit order) l

def naiveChange (order : Comparator α) (l : List α) : Change α → List α
  | .clear => []
  | .insert a => putTwin order a l
  | .remove a => eraseTwin order a l

theorem naiveCommit_eq_foldl (order : Comparator α) (l : List α) (e : Editor α) :
    naiveCommit order l e = e.changes.foldl (naiveChange order) l := by
  obtain ⟨additions, removals, replacement, clearing⟩ := e
  cases clearing <;> cases replacement <;>
    simp [naiveCommit, Editor.changes, List.foldl_append, List.foldl_map, naiveChange]

omit [Model α] in
theorem eq_mk {l : SortedList α} {order : Comparator α} {entries : List α} (ho : l.order = order)
    (he : l.entries = entries) : l = ⟨order, entries⟩ := by
  rw [← ho, ← he]

theorem insert_order (l : SortedList α) (a : α) : (l.insert a).1.order = l.order := by
  rw [insert]
  split <;> rfl

theorem remove_order (l : SortedList α) (a : α) : (l.remove a).1.order = l.order := by
  rw [remove]
  split <;> rfl

section Step

variable {order : Comparator α} [TransCmp order]

theorem change_stableSort (r : List α) (c : Change α) :
    (change ⟨order, order.stableSort r⟩ c).1 = ⟨order, order.stableSort (naiveChange order r c)⟩ := by
  let l : SortedList α := ⟨order, order.stableSort r⟩
  have hl : order.Sorted l.entries := Comparator.sorted_stableSort r
  cases c with
  | clear => exact eq_mk rfl (by simp [change, clear, naiveChange, Comparator.stableSort])
  | insert a =>
    have hself : order a a = .eq := ReflCmp.compare_self
    apply eq_mk (insert_order l a)
    refine (insert_entries hl a).trans (Comparator.withRun_stableSort ?_ ?_ ?_ r)
    · intro run hm e he
      rcases mem_putTwin he with rfl | he
      · exact hself
      · exact hm e he
    · exact fun r => equals_putTwin_of_eq hself r
    · exact fun b r hb => equals_putTwin_of_ne hb r
  | remove a =>
    have hself : order a a = .eq := ReflCmp.compare_self
    apply eq_mk (remove_order l a)
    refine (remove_entries hl a).trans (Comparator.withRun_stableSort ?_ ?_ ?_ r)
    · exact fun run hm e he => hm e (List.eraseP_subset he)
    · exact fun r => equals_eraseTwin_of_eq hself r
    · exact fun b r hb => equals_eraseTwin_of_ne hb r

theorem changeAll_stableSort (r : List α) (cs : List (Change α)) :
    (changeAll ⟨order, order.stableSort r⟩ cs).1 =
      ⟨order, order.stableSort (cs.foldl (naiveChange order) r)⟩ := by
  induction cs generalizing r with
  | nil => rfl
  | cons c cs ih =>
    have hcons : ∀ l : SortedList α, (l.changeAll (c :: cs)).1 = ((l.change c).1.changeAll cs).1 := fun _ => rfl
    rw [hcons, change_stableSort]
    exact ih (naiveChange order r c)

theorem commitAll_stableSort (r : List α) (es : List (Editor α)) :
    commitAll ⟨order, order.stableSort r⟩ es = ⟨order, order.stableSort (naiveCommitAll order r es)⟩ := by
  induction es generalizing r with
  | nil => rfl
  | cons e es ih =>
    have hc : (commit ⟨order, order.stableSort r⟩ e).1 =
        ⟨order, order.stableSort (naiveCommit order r e)⟩ := by
      rw [commit_eq, changeAll_stableSort, naiveCommit_eq_foldl]
    rw [commitAll, List.foldl_cons, hc]
    exact ih (naiveCommit order r e)

variable (same : Equivalence fun a b : α => Model.isSame a b = true)
include same

theorem distinct_foldl_naiveChange {r : List α} (h : Distinct order r) (cs : List (Change α)) :
    Distinct order (cs.foldl (naiveChange order) r) := by
  induction cs generalizing r with
  | nil => exact h
  | cons c cs ih =>
    apply ih
    cases c with
    | clear => exact List.Pairwise.nil
    | insert a => exact h.putTwin same a
    | remove a => exact h.eraseTwin a

theorem distinct_naiveCommitAll {r : List α} (h : Distinct order r) (es : List (Editor α)) :
    Distinct order (naiveCommitAll order r es) := by
  induction es generalizing r with
  | nil => exact h
  | cons e es ih =>
    apply ih
    rw [naiveCommit_eq_foldl]
    exact distinct_foldl_naiveChange same h _

theorem distinct_stableSort {r : List α} (h : Distinct order r) : Distinct order (order.stableSort r) := by
  refine ((Comparator.stableSort_perm r).pairwise_iff ?_).mpr h
  intro a b hab hba
  have hf := hab (OrientedCmp.eq_symm hba)
  exact Bool.eq_false_iff.mpr fun ht => by simp [same.symm ht] at hf

end Step

theorem entries_commitAll (order : Comparator α) [TransCmp order]
    (same : Equivalence fun a b : α => Model.isSame a b = true) (es : List (Editor α)) :
    let l := (create order).commitAll es
    order.Sorted l.entries ∧ Distinct order l.entries ∧
      l.entries = order.stableSort (naiveCommitAll order [] es) := by
  have hl : (create order).commitAll es = ⟨order, order.stableSort (naiveCommitAll order [] es)⟩ := by
    rw [create, ← commitAll_stableSort, Comparator.stableSort, List.mergeSort_nil]
  rw [hl]
  refine ⟨Comparator.sorted_stableSort _, ?_, rfl⟩
  exact distinct_stableSort same (distinct_naiveCommitAll same List.Pairwise.nil es)

structure Row where
  rank : Nat
  id : Nat

instance : Model Row := ⟨fun a b => a.id == b.id, fun a b => a.id == b.id && a.rank == b.rank⟩

theorem Row.isSame_iff {a b : Row} : Model.isSame a b = true ↔ a.id = b.id := beq_iff_eq

theorem Row.isSame_equivalence : Equivalence fun a b : Row => Model.isSame a b = true where
  refl _ := isSame_iff.mpr rfl
  symm h := isSame_iff.mpr (isSame_iff.mp h).symm
  trans h k := isSame_iff.mpr ((isSame_iff.mp h).trans (isSame_iff.mp k))

theorem entries_commitAll_rows :
    let es := [Editor.ofEdits [.addAll [⟨2, 5⟩, ⟨1, 7⟩, ⟨1, 3⟩]],
      Editor.ofEdits [.add ⟨1, 7⟩, .remove ⟨1, 3⟩, .add ⟨2, 7⟩]]
    let l := (create (compareOn Row.rank)).commitAll es
    Comparator.Sorted (compareOn Row.rank) l.entries ∧ Distinct (compareOn Row.rank) l.entries ∧
      l.entries = Comparator.stableSort (compareOn Row.rank) [⟨2, 5⟩, ⟨1, 7⟩, ⟨2, 7⟩] :=
  entries_commitAll (compareOn Row.rank) Row.isSame_equivalence _

end TabDeck.SortedList
