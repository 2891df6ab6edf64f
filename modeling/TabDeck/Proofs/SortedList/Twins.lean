import TabDeck.SortedList.Basic
import TabDeck.Proofs.Order.Sorted
/-!
Twins: entries that stand for the same and are equal to the order. Putting a model into a list overwrites its twin, so
that lists without twins stay without them.
-/
namespace TabDeck

open Std

variable {α : Type} [Model α] {order : Comparator α}

def isTwin (order : Comparator α) (a e : α) : Bool := order e a == .eq && Model.isSame e a

theorem isTwin_iff {a e : α} : isTwin order a e = true ↔ order e a = .eq ∧ Model.isSame e a = true := by
  simp [isTwin]

section Relation

variable [TransCmp order] (same : Equivalence fun a b : α => Model.isSame a b = true)
include same

theorem isTwin_refl (a : α) : isTwin order a a = true :=
  isTwin_iff.mpr ⟨ReflCmp.compare_self, same.refl a⟩

theorem isTwin_symm {a b : α} (h : isTwin order a b = true) : isTwin order b a = true := by
  obtain ⟨hequal, hsame⟩ := isTwin_iff.mp h
  exact isTwin_iff.mpr ⟨OrientedCmp.eq_symm hequal, same.symm hsame⟩

theorem isTwin_trans {a b c : α} (h : isTwin order a b = true) (h' : isTwin order b c = true) :
    isTwin order a c = true := by
  obtain ⟨hequal, hsame⟩ := isTwin_iff.mp h
  obtain ⟨hequal', hsame'⟩ := isTwin_iff.mp h'
  exact isTwin_iff.mpr ⟨TransCmp.eq_trans hequal' hequal, same.trans hsame' hsame⟩

end Relation

def putTwin (order : Comparator α) (a : α) : List α → List α
  | [] => [a]
  | e :: rest => if isTwin order a e then a :: rest else e :: putTwin order a rest

def eraseTwin (order : Comparator α) (a : α) (l : List α) : List α := l.eraseP (isTwin order a)

theorem putTwin_of_none {a : α} {l : List α} (h : ∀ e ∈ l, isTwin order a e = false) :
    putTwin order a l = l ++ [a] := by
  induction l with
  | nil => rfl
  | cons e l ih =>
    rw [putTwin, if_neg (by simp [h e List.mem_cons_self]), ih fun x hx => h x (List.mem_cons_of_mem _ hx)]
    rfl

theorem putTwin_eq_set {a : α} {l : List α} {i : Nat}
    (h : l.findIdx? (isTwin order a) = some i) : putTwin order a l = l.set i a := by
  induction l generalizing i with
  | nil => simp at h
  | cons e l ih =>
    rw [List.findIdx?_cons] at h
    by_cases he : isTwin order a e = true
    · obtain rfl : 0 = i := by simpa [he] using h
      simp [putTwin, he]
    · obtain ⟨j, hj, rfl⟩ : ∃ j, l.findIdx? (isTwin order a) = some j ∧ j + 1 = i := by simpa [he] using h
      simp [putTwin, he, ih hj]

theorem mem_putTwin {a x : α} {l : List α} (h : x ∈ putTwin order a l) : x = a ∨ x ∈ l := by
  induction l with
  | nil => exact .inl (List.mem_singleton.mp h)
  | cons e l ih =>
    rw [putTwin] at h
    split at h
    · exact (List.mem_cons.mp h).imp_right (List.mem_cons_of_mem e)
    · rcases List.mem_cons.mp h with rfl | h
      · exact .inr List.mem_cons_self
      · exact (ih h).imp_right (List.mem_cons_of_mem e)

theorem mem_putTwin_self (order : Comparator α) (a : α) (l : List α) : a ∈ putTwin order a l := by
  induction l with
  | nil => exact List.mem_cons_self
  | cons e l ih =>
    rw [putTwin]
    split
    · exact List.mem_cons_self
    · exact List.mem_cons_of_mem e ih

theorem mem_putTwin_or {a e : α} {l : List α} (h : e ∈ l) :
    e ∈ putTwin order a l ∨ isTwin order a e = true := by
  induction l with
  | nil => cases h
  | cons x l ih =>
    rw [putTwin]
    rcases List.mem_cons.mp h with rfl | h
    · split
      · exact .inr ‹_›
      · exact .inl List.mem_cons_self
    · split
      · exact .inl (List.mem_cons_of_mem a h)
      · exact (ih h).imp_left (List.mem_cons_of_mem x)

theorem findIdx?_isTwin {a : α} {l : List α}
    (h : ∀ e ∈ l, Model.isSame e a = true → order e a = .eq) :
    l.findIdx? (isTwin order a) = l.findIdx? fun e => Model.isSame e a := by
  induction l with
  | nil => rfl
  | cons e l ih =>
    have he : isTwin order a e = Model.isSame e a := by
      cases hs : Model.isSame e a with
      | false => simp [isTwin, hs]
      | true => simp [isTwin, hs, h e List.mem_cons_self hs]
    rw [List.findIdx?_cons, List.findIdx?_cons, he, ih fun x hx => h x (List.mem_cons_of_mem _ hx)]

theorem equals_putTwin_of_eq [TransCmp order] {a b : α} (h : order b a = .eq) (l : List α) :
    order.equals b (putTwin order a l) = putTwin order a (order.equals b l) := by
  have hab : order a b = .eq := OrientedCmp.eq_symm h
  induction l with
  | nil => exact Comparator.equals_cons_of_eq hab
  | cons e l ih =>
    by_cases he : order e b = .eq
    · rw [Comparator.equals_cons_of_eq he]
      by_cases ht : isTwin order a e = true
      · rw [putTwin, putTwin, if_pos ht, if_pos ht, Comparator.equals_cons_of_eq hab]
      · rw [putTwin, putTwin, if_neg ht, if_neg ht, Comparator.equals_cons_of_eq he, ih]
    · have ht : ¬isTwin order a e = true := by
        rw [isTwin, ← TransCmp.congr_right h]
        simp [he]
      rw [putTwin, if_neg ht, Comparator.equals_cons_of_ne he, Comparator.equals_cons_of_ne he, ih]

theorem equals_putTwin_of_ne [TransCmp order] {a b : α} (h : order b a ≠ .eq) (l : List α) :
    order.equals b (putTwin order a l) = order.equals b l := by
  have hab : order a b ≠ .eq := fun hab => h (OrientedCmp.eq_symm hab)
  induction l with
  | nil => exact Comparator.equals_cons_of_ne hab
  | cons e l ih =>
    by_cases ht : isTwin order a e = true
    · have hea : order e a = .eq := (isTwin_iff.mp ht).1
      have heb : order e b ≠ .eq := by rwa [TransCmp.congr_left hea]
      rw [putTwin, if_pos ht, Comparator.equals_cons_of_ne hab, Comparator.equals_cons_of_ne heb]
    · rw [putTwin, if_neg ht, Comparator.equals, Comparator.equals, List.filter_cons, List.filter_cons]
      exact congrArg (fun r => if (order e b == .eq) = true then e :: r else r) ih

theorem equals_eraseTwin_of_eq [TransCmp order] {a b : α} (h : order b a = .eq)
    (l : List α) : order.equals b (eraseTwin order a l) = eraseTwin order a (order.equals b l) := by
  have hp : (fun e => isTwin order a e && order e b == .eq) = isTwin order a := by
    funext e
    rw [isTwin, TransCmp.congr_right h]
    cases order e a == .eq <;> cases Model.isSame e a <;> rfl
  rw [eraseTwin, eraseTwin, Comparator.equals, Comparator.equals, List.eraseP_filter, hp]

theorem equals_eraseTwin_of_ne [TransCmp order] {a b : α} (h : order b a ≠ .eq)
    (l : List α) : order.equals b (eraseTwin order a l) = order.equals b l := by
  induction l with
  | nil => rfl
  | cons e l ih =>
    by_cases ht : isTwin order a e = true
    · have hea : order e a = .eq := (isTwin_iff.mp ht).1
      have heb : order e b ≠ .eq := fun heb => h (TransCmp.eq_trans (OrientedCmp.eq_symm heb) hea)
      rw [eraseTwin, List.eraseP_cons_of_pos ht, Comparator.equals_cons_of_ne heb]
    · rw [eraseTwin, List.eraseP_cons_of_neg ht, Comparator.equals, Comparator.equals, List.filter_cons,
        List.filter_cons]
      exact congrArg (fun r => if (order e b == .eq) = true then e :: r else r) ih

def Distinct (order : Comparator α) (l : List α) : Prop :=
  l.Pairwise fun a b => order a b = .eq → Model.isSame a b = false

theorem Distinct.putTwin [TransCmp order]
    (same : Equivalence fun a b : α => Model.isSame a b = true) {l : List α} (h : Distinct order l) (a : α) :
    Distinct order (putTwin order a l) := by
  induction l with
  | nil => exact List.pairwise_singleton _ a
  | cons e l ih =>
    obtain ⟨he, hl⟩ := List.pairwise_cons.mp h
    rw [TabDeck.putTwin]
    split
    · rename_i ht
      obtain ⟨hea, hs⟩ := isTwin_iff.mp ht
      refine List.pairwise_cons.mpr ⟨fun x hx hax => ?_, hl⟩
      have hex := he x hx (TransCmp.eq_trans hea hax)
      exact Bool.eq_false_iff.mpr fun hsx => by simp [same.trans hs hsx] at hex
    · rename_i ht
      refine List.pairwise_cons.mpr ⟨fun x hx hex => ?_, ih hl⟩
      rcases mem_putTwin hx with rfl | hx
      · simpa [isTwin, hex] using ht
      · exact he x hx hex

theorem Distinct.eraseTwin {l : List α} (h : Distinct order l) (a : α) :
    Distinct order (eraseTwin order a l) := h.sublist List.eraseP_sublist

section Uniqueness

variable [TransCmp order] {l : List α} (same : Equivalence fun a b : α => Model.isSame a b = true)
include same

theorem Distinct.not_lt {a e e' : α} {i j : Nat} (h : Distinct order l) (he : l[i]? = some e) (he' : l[j]? = some e')
    (ht : isTwin order a e = true) (ht' : isTwin order a e' = true) : ¬i < j := by
  intro hij
  obtain ⟨hequal, hsame⟩ := isTwin_iff.mp (isTwin_trans same (isTwin_symm same ht') ht)
  obtain ⟨hi, rfl⟩ := List.getElem?_eq_some_iff.mp he
  obtain ⟨hj, rfl⟩ := List.getElem?_eq_some_iff.mp he'
  rw [List.pairwise_iff_getElem.mp h i j hi hj hij hequal] at hsame
  cases hsame

theorem Distinct.index_unique {a e e' : α} {i j : Nat} (h : Distinct order l) (he : l[i]? = some e)
    (he' : l[j]? = some e') (ht : isTwin order a e = true) (ht' : isTwin order a e' = true) : i = j :=
  Nat.le_antisymm (Nat.le_of_not_lt (h.not_lt same he' he ht' ht)) (Nat.le_of_not_lt (h.not_lt same he he' ht ht'))

theorem Distinct.eq_of_isTwin {a e e' : α} (h : Distinct order l) (he : e ∈ l) (he' : e' ∈ l)
    (ht : isTwin order a e = true) (ht' : isTwin order a e' = true) : e = e' := by
  obtain ⟨i, hi⟩ := List.getElem?_of_mem he
  obtain ⟨j, hj⟩ := List.getElem?_of_mem he'
  obtain rfl := h.index_unique same hi hj ht ht'
  exact Option.some.inj (hi.symm.trans hj)

end Uniqueness

end TabDeck
