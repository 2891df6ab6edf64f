import TabDeck.Order
/-!
To a value, a sorted list is a lower part, a run of equals and a higher part; the runs alone determine the list.
-/
namespace TabDeck.Comparator

open Std

variable {α : Type} (order : Comparator α)

def Sorted (l : List α) : Prop := l.Pairwise fun a b => (order a b).isLE = true

def stableSort (l : List α) : List α := l.mergeSort fun a b => (order a b).isLE

def lower (a : α) (l : List α) : List α := l.filter fun e => order e a == .lt

def equals (a : α) (l : List α) : List α := l.filter fun e => order e a == .eq

def higher (a : α) (l : List α) : List α := l.filter fun e => order e a == .gt

def withRun (a : α) (run l : List α) : List α := order.lower a l ++ run ++ order.higher a l

variable {order}

theorem mem_equals {a e : α} {l : List α} : e ∈ order.equals a l ↔ e ∈ l ∧ order e a = .eq := by
  simp [equals]

theorem lower_holds {a : α} {l : List α} : ∀ e ∈ order.lower a l, order e a = .lt := by simp [lower]

theorem equals_holds {a : α} {l : List α} : ∀ e ∈ order.equals a l, order e a = .eq := by simp [equals]

theorem higher_holds {a : α} {l : List α} : ∀ e ∈ order.higher a l, order e a = .gt := by simp [higher]

theorem lower_cons_of_ne {a e : α} {l : List α} (h : order e a ≠ .lt) :
    order.lower a (e :: l) = order.lower a l := List.filter_cons_of_neg (by simpa using h)

theorem equals_cons_of_eq {a e : α} {l : List α} (h : order e a = .eq) :
    order.equals a (e :: l) = e :: order.equals a l := List.filter_cons_of_pos (by simpa using h)

theorem equals_cons_of_ne {a e : α} {l : List α} (h : order e a ≠ .eq) :
    order.equals a (e :: l) = order.equals a l := List.filter_cons_of_neg (by simpa using h)

theorem equals_append (a : α) (l r : List α) :
    order.equals a (l ++ r) = order.equals a l ++ order.equals a r := List.filter_append ..

theorem equals_eq_self {a : α} {run : List α} (hm : ∀ e ∈ run, order e a = .eq) : order.equals a run = run :=
  List.filter_eq_self.mpr fun e he => by simp [hm e he]

theorem stableSort_perm (l : List α) : (order.stableSort l).Perm l := List.mergeSort_perm l _

variable [TransCmp order]

theorem equals_self_cons {a : α} {l : List α} : order.equals a (a :: l) = a :: order.equals a l :=
  equals_cons_of_eq ReflCmp.compare_self

theorem Sorted.lower_eq_nil {a e : α} {l : List α} (h : order.Sorted (e :: l)) (he : order e a ≠ .lt) :
    order.lower a l = [] := by
  simp only [lower, List.filter_eq_nil_iff, beq_iff_eq]
  intro x hx hlt
  exact he (TransCmp.lt_of_isLE_of_lt (List.rel_of_pairwise_cons h hx) hlt)

theorem Sorted.equals_eq_nil {a e : α} {l : List α} (h : order.Sorted (e :: l)) (he : order e a = .gt) :
    order.equals a l = [] := by
  simp only [equals, List.filter_eq_nil_iff, beq_iff_eq]
  intro x hx heq
  have hle : (order e a).isLE = true :=
    TransCmp.isLE_trans (List.rel_of_pairwise_cons h hx) (by simp [heq])
  simp [he] at hle

theorem Sorted.split {l : List α} (h : order.Sorted l) (a : α) : order.withRun a (order.equals a l) l = l := by
  induction l with
  | nil => rfl
  | cons e l ih =>
    have hl := ih h.of_cons
    cases he : order e a with
    | lt => simpa [withRun, lower, equals, higher, he] using hl
    | eq =>
      have hn := h.lower_eq_nil (a := a) (by simp [he])
      rw [withRun, hn] at hl
      rw [withRun, lower_cons_of_ne (by simp [he]), hn, equals_cons_of_eq he]
      simpa [higher, he] using hl
    | gt =>
      have hn := h.lower_eq_nil (a := a) (by simp [he])
      have hq := h.equals_eq_nil he
      rw [withRun, hn, hq] at hl
      rw [withRun, lower_cons_of_ne (by simp [he]), hn, equals_cons_of_ne (by simp [he]), hq]
      simpa [higher, he] using hl

theorem equals_congr {a b : α} (h : order a b = .eq) (l : List α) : order.equals a l = order.equals b l := by
  simp only [equals, TransCmp.congr_right h]

theorem mem_of_equals_eq {l r : List α} (h : ∀ a, order.equals a l = order.equals a r) {a : α} (ha : a ∈ l) :
    a ∈ r := by
  have hm : a ∈ order.equals a l := mem_equals.mpr ⟨ha, ReflCmp.compare_self⟩
  rw [h a] at hm
  exact (mem_equals.mp hm).1

theorem Sorted.head_isLE {a e : α} {l : List α} (h : order.Sorted (e :: l)) (ha : a ∈ e :: l) :
    (order e a).isLE = true := by
  rcases List.mem_cons.mp ha with rfl | ha
  · have hself : order a a = .eq := ReflCmp.compare_self
    rw [hself]
    rfl
  · exact List.rel_of_pairwise_cons h ha

theorem Sorted.ext {l r : List α} (hl : order.Sorted l) (hr : order.Sorted r)
    (h : ∀ a, order.equals a l = order.equals a r) : l = r := by
  induction l generalizing r with
  | nil =>
    cases r with
    | nil => rfl
    | cons b r => exact absurd (mem_of_equals_eq (fun a => (h a).symm) List.mem_cons_self) List.not_mem_nil
  | cons a l ih =>
    cases r with
    | nil => exact absurd (mem_of_equals_eq h List.mem_cons_self) List.not_mem_nil
    | cons b r =>
      have hab := hl.head_isLE (mem_of_equals_eq (fun c => (h c).symm) List.mem_cons_self)
      have hba := hr.head_isLE (mem_of_equals_eq h List.mem_cons_self)
      have heq : order b a = .eq := OrientedCmp.isLE_antisymm hba hab
      obtain rfl : a = b := by
        have hc := h a
        rw [equals_self_cons, equals_cons_of_eq heq] at hc
        exact (List.cons.inj hc).1
      congr 1
      apply ih hl.of_cons hr.of_cons
      intro c
      have hc := h c
      by_cases hac : order a c = .eq
      · rw [equals_cons_of_eq hac, equals_cons_of_eq hac] at hc
        exact (List.cons.inj hc).2
      · rwa [equals_cons_of_ne hac, equals_cons_of_ne hac] at hc

theorem isLE_total (a b : α) : ((order a b).isLE || (order b a).isLE) = true := by
  have hswap : order b a = (order a b).swap := OrientedCmp.eq_swap
  rw [hswap]
  cases order a b <;> rfl

theorem sorted_stableSort (l : List α) : order.Sorted (order.stableSort l) :=
  List.pairwise_mergeSort (fun _ _ _ => TransCmp.isLE_trans) isLE_total l

theorem sorted_of_equal {a : α} {run : List α} (hm : ∀ e ∈ run, order e a = .eq) : order.Sorted run := by
  apply List.pairwise_of_forall_mem_list
  intro x hx y hy
  rw [TransCmp.congr_left (hm x hx), OrientedCmp.eq_symm (hm y hy)]
  rfl

theorem equals_stableSort (a : α) (l : List α) : order.equals a (order.stableSort l) = order.equals a l := by
  have hsub : List.Sublist (order.equals a l) (order.stableSort l) :=
    List.sublist_mergeSort (fun _ _ _ => TransCmp.isLE_trans) isLE_total (sorted_of_equal equals_holds)
      List.filter_sublist
  have hrun : List.Sublist (order.equals a l) (order.equals a (order.stableSort l)) := by
    have hf := hsub.filter fun e => order e a == .eq
    simpa only [equals, List.filter_filter, Bool.and_self] using hf
  have hlen : (order.equals a (order.stableSort l)).length = (order.equals a l).length :=
    ((stableSort_perm l).filter _).length_eq
  exact (hrun.eq_of_length_le (by omega)).symm

theorem Sorted.eq_stableSort {l r : List α} (h : order.Sorted l)
    (hr : ∀ a, order.equals a l = order.equals a r) : l = order.stableSort r :=
  h.ext (sorted_stableSort r) fun a => (hr a).trans (equals_stableSort a r).symm

theorem filter_stableSort (p : α → Bool) (l : List α) :
    (order.stableSort l).filter p = order.stableSort (l.filter p) := by
  have hequals (a : α) (l : List α) : order.equals a (l.filter p) = (order.equals a l).filter p := by
    simp only [equals, List.filter_filter, Bool.and_comm]
  apply Sorted.eq_stableSort ((sorted_stableSort l).filter p)
  intro a
  rw [hequals, hequals, equals_stableSort]

section Runs

variable {a b : α} {run l : List α}

theorem Sorted.withRun (h : order.Sorted l) (hm : ∀ e ∈ run, order e a = .eq) :
    order.Sorted (order.withRun a run l) := by
  rw [Comparator.withRun, List.append_assoc]
  refine List.pairwise_append.mpr
    ⟨h.filter _, List.pairwise_append.mpr ⟨sorted_of_equal hm, h.filter _, ?_⟩, ?_⟩
  · intro x hx y hy
    rw [TransCmp.congr_left (hm x hx), OrientedCmp.lt_of_gt (higher_holds y hy)]
    rfl
  · intro x hx y hy
    have hlt := lower_holds x hx
    rcases List.mem_append.mp hy with hy | hy
    · rw [TransCmp.lt_of_lt_of_eq hlt (OrientedCmp.eq_symm (hm y hy))]
      rfl
    · rw [TransCmp.lt_trans hlt (OrientedCmp.lt_of_gt (higher_holds y hy))]
      rfl

theorem equals_withRun_of_eq (hm : ∀ e ∈ run, order e a = .eq) (hb : order b a = .eq) :
    order.equals b (order.withRun a run l) = run := by
  have hlow : order.equals a (order.lower a l) = [] :=
    List.filter_eq_nil_iff.mpr fun e he => by simp [lower_holds e he]
  have hhigh : order.equals a (order.higher a l) = [] :=
    List.filter_eq_nil_iff.mpr fun e he => by simp [higher_holds e he]
  rw [equals_congr hb, withRun, equals_append, equals_append, hlow, hhigh, equals_eq_self hm]
  simp

theorem equals_withRun_of_ne (h : order.Sorted l) (hm : ∀ e ∈ run, order e a = .eq) (hb : order b a ≠ .eq) :
    order.equals b (order.withRun a run l) = order.equals b l := by
  have hnil : ∀ run : List α, (∀ e ∈ run, order e a = .eq) → order.equals b run = [] := by
    intro run hm
    refine List.filter_eq_nil_iff.mpr fun e he => ?_
    simpa using fun heb => hb (TransCmp.eq_trans (OrientedCmp.eq_symm heb) (hm e he))
  have hsplit := congrArg (order.equals b) (h.split a)
  rw [withRun, equals_append, equals_append, hnil _ equals_holds] at hsplit
  rw [withRun, equals_append, equals_append, hnil _ hm, hsplit]

theorem withRun_stableSort {f : List α → List α}
    (hmem : ∀ run : List α, (∀ e ∈ run, order e a = .eq) → ∀ e ∈ f run, order e a = .eq)
    (heq : ∀ r, order.equals a (f r) = f (order.equals a r))
    (hne : ∀ b r, order b a ≠ .eq → order.equals b (f r) = order.equals b r) (r : List α) :
    order.withRun a (f (order.equals a (order.stableSort r))) (order.stableSort r) =
      order.stableSort (f r) := by
  have hrun := hmem _ fun e (he : e ∈ order.equals a (order.stableSort r)) => equals_holds e he
  apply ((sorted_stableSort r).withRun hrun).eq_stableSort
  intro b
  by_cases hb : order b a = .eq
  · rw [equals_withRun_of_eq hrun hb, equals_stableSort, equals_congr hb, heq]
  · rw [equals_withRun_of_ne (sorted_stableSort r) hrun hb, equals_stableSort, hne b r hb]

end Runs

end TabDeck.Comparator
