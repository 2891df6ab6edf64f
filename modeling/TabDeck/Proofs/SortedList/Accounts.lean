import Mathlib.Data.List.Forall2
import TabDeck.Proofs.SortedList.Scan

namespace TabDeck

open Std

variable {α : Type}

namespace SortedList

namespace Summary

theorem add_eq_zero_iff {s t : Summary} : s.add t = zero ↔ s = zero ∧ t = zero := by
  obtain ⟨i, r, c⟩ := s
  obtain ⟨i', r', c'⟩ := t
  simp only [add, zero, mk.injEq]
  omega

end Summary

theorem equalRun_le (l : SortedList α) (a : α) : (l.equalRun a).1 ≤ (l.equalRun a).2 ∧ (l.equalRun a).2 ≤ l.size := by
  have hfirst := partitionPoint_le_length (fun e => l.order e a == .lt) l.entries
  have hpast := partitionPoint_le_length (fun e => l.order e a != .gt)
    (l.entries.drop (partitionPoint (fun e => l.order e a == .lt) l.entries))
  rw [List.length_drop] at hpast
  simp only [equalRun, size]
  omega

variable [Model α] {l : SortedList α}

theorem position?_lt {a : α} {i : Nat} (h : l.position? a = some i) : i < l.size := by
  obtain ⟨j, hj, rfl⟩ := Option.map_eq_some_iff.mp h
  obtain ⟨hlt, -⟩ := List.findIdx?_eq_some_iff_getElem.mp hj
  have hle := l.equalRun_le a
  simp only [List.length_drop, List.length_take] at hlt
  rw [size] at hle ⊢
  omega

theorem insert_of_some {a : α} {i : Nat} (h : l.position? a = some i) :
    ∃ e, l.entries[i]? = some e ∧
      l.insert a = ({ l with entries := l.entries.set i a }, ⟨0, 0, if Model.hasSameContent e a then 0 else 1⟩) := by
  have hlt : i < l.entries.length := position?_lt h
  have he : l.entries[i]? = some l.entries[i] := List.getElem?_eq_getElem hlt
  refine ⟨l.entries[i], he, ?_⟩
  simp only [insert, h, he, Option.any_some]

theorem insert_of_none {a : α} (h : l.position? a = none) :
    l.insert a = ({ l with entries := l.entries.insertIdx (l.equalRun a).2 a }, ⟨1, 0, 0⟩) := by
  rw [insert, h]

theorem remove_of_some {a : α} {i : Nat} (h : l.position? a = some i) :
    l.remove a = ({ l with entries := l.entries.eraseIdx i }, ⟨0, 1, 0⟩) := by
  rw [remove, h]

theorem remove_of_none {a : α} (h : l.position? a = none) : l.remove a = (l, .zero) := by
  rw [remove, h]

section Size

theorem change_size (l : SortedList α) (c : Change α) :
    (l.change c).1.size + (l.change c).2.removed = l.size + (l.change c).2.inserted := by
  cases c with
  | clear => simp [change, clear, size]
  | insert a =>
    rw [change]
    cases hi : l.position? a with
    | none =>
      rw [insert_of_none hi]
      exact List.length_insertIdx_of_le_length (l.equalRun_le a).2 a
    | some i =>
      obtain ⟨e, -, hinsert⟩ := insert_of_some hi
      simp [hinsert, size]
  | remove a =>
    rw [change]
    cases hi : l.position? a with
    | none =>
      rw [remove_of_none hi]
      rfl
    | some i =>
      have hlt : i < l.entries.length := position?_lt hi
      rw [remove_of_some hi]
      simp only [size, List.length_eraseIdx_of_lt hlt]
      omega

theorem changeAll_size (l : SortedList α) (cs : List (Change α)) :
    (l.changeAll cs).1.size + (l.changeAll cs).2.removed = l.size + (l.changeAll cs).2.inserted := by
  induction cs generalizing l with
  | nil => rfl
  | cons c cs ih =>
    have hfirst := l.change_size c
    have hrest := ih (l.change c).1
    simp only [changeAll, Summary.add]
    omega

end Size

section Insertions

def Summary.ofTwin? (a : α) : Option α → Summary
  | none => ⟨1, 0, 0⟩
  | some e => ⟨0, 0, if Model.hasSameContent e a then 0 else 1⟩

def Change.isInsertion : Change α → Bool
  | .insert _ => true
  | .clear | .remove _ => false

/-- Whether a change overwrites a twin by a model of the same content. -/
def renews (l : SortedList α) : Change α → Bool
  | .insert a => l.entries.any fun e => isTwin l.order a e && Model.hasSameContent e a
  | .clear | .remove _ => false

def renewals (l : SortedList α) : List (Change α) → Nat
  | [] => 0
  | c :: rest => (l.renews c).toNat + (l.change c).1.renewals rest

variable {order : Comparator α} [TransCmp order]

theorem Tidy.insert_summary (h : Tidy order l) (a : α) :
    (l.insert a).2 = .ofTwin? a (l.entries.find? (isTwin order a)) := by
  rw [List.find?_eq_bind_findIdx?_getElem?, ← h.position?_eq_findIdx? a]
  cases hi : l.position? a with
  | none =>
    rw [insert_of_none hi]
    rfl
  | some i =>
    obtain ⟨e, he, hinsert⟩ := insert_of_some hi
    rw [hinsert, Option.bind_some, he]
    rfl

variable (same : Equivalence fun a b : α => Model.isSame a b = true)
include same

theorem Tidy.renews_insert (h : Tidy order l) (a : α) :
    l.renews (.insert a) = (l.entries.find? (isTwin order a)).any fun e => Model.hasSameContent e a := by
  rw [renews, h.order_eq]
  cases htwin : l.entries.find? (isTwin order a) with
  | none =>
    have hnone := List.find?_eq_none.mp htwin
    simpa using fun e he ht => absurd ht (hnone e he)
  | some e =>
    have he := List.mem_of_find?_eq_some htwin
    have ht := List.find?_some htwin
    -- No other entry can be the one of the same content, since the twin that was found is the only one.
    rw [Option.any_some, Bool.eq_iff_iff, List.any_eq_true]
    constructor
    · rintro ⟨f, hf, hkept⟩
      obtain ⟨htf, hkept⟩ := (Bool.and_eq_true _ _).mp hkept
      rwa [h.distinct.eq_of_isTwin same he hf ht htf]
    · exact fun hkept => ⟨e, he, by rw [ht, hkept]; rfl⟩

theorem Tidy.change_insertions (h : Tidy order l) (c : Change α) :
    (l.change c).2.inserted + (l.change c).2.changed + (l.renews c).toNat = c.isInsertion.toNat := by
  cases c with
  | clear => rfl
  | insert a =>
    rw [change, h.insert_summary a, h.renews_insert same a]
    cases l.entries.find? (isTwin order a) with
    | none => rfl
    | some e => cases hkept : Model.hasSameContent e a <;> simp [Summary.ofTwin?, hkept, Change.isInsertion]
  | remove a =>
    rw [change]
    cases hi : l.position? a with
    | none =>
      rw [remove_of_none hi]
      rfl
    | some i =>
      rw [remove_of_some hi]
      rfl

theorem Tidy.changeAll_insertions (h : Tidy order l) (cs : List (Change α)) :
    (l.changeAll cs).2.inserted + (l.changeAll cs).2.changed + l.renewals cs = cs.countP Change.isInsertion := by
  induction cs generalizing l with
  | nil => rfl
  | cons c cs ih =>
    have hfirst := h.change_insertions same c
    have hrest := ih (h.change same c)
    have hcount : (c :: cs).countP Change.isInsertion = cs.countP Change.isInsertion + c.isInsertion.toNat := by
      rw [List.countP_cons]
      cases c.isInsertion <;> rfl
    rw [hcount]
    simp only [changeAll, renewals, Summary.add]
    omega

omit [Model α] same in
theorem countP_changes (e : Editor α) :
    e.changes.countP Change.isInsertion = (e.replacement.getD []).length + e.additions.length := by
  have hinsertions (as : List α) : (as.map .insert).countP Change.isInsertion = as.length := by
    rw [List.countP_map]
    exact List.countP_eq_length.mpr fun _ _ => rfl
  have hremovals : (e.removals.map .remove).countP Change.isInsertion = 0 := by
    rw [List.countP_map]
    exact List.countP_eq_zero.mpr fun _ _ => Bool.false_ne_true
  obtain ⟨additions, removals, replacement, clearing⟩ := e
  simp only [Editor.changes, List.countP_append, hinsertions, hremovals]
  cases clearing <;> cases replacement <;> simp [hinsertions, Change.isInsertion]

end Insertions

section Content

def SameContents (l r : List α) : Prop := List.Forall₂ (fun e f => Model.hasSameContent e f = true) l r

variable (content : Equivalence fun a b : α => Model.hasSameContent a b = true)
include content

theorem SameContents.refl (l : List α) : SameContents l l := List.forall₂_same.mpr fun e _ => content.refl e

theorem SameContents.trans {l m r : List α} (h : SameContents l m) (h' : SameContents m r) : SameContents l r := by
  induction h generalizing r with
  | nil => exact h'
  | cons hab _ ih =>
    obtain _ | ⟨hbc, h'⟩ := h'
    exact .cons (content.trans hab hbc) (ih h')

theorem SameContents.set {l : List α} {i : Nat} {e a : α} (he : l[i]? = some e)
    (hkept : Model.hasSameContent e a = true) : SameContents l (l.set i a) := by
  induction l generalizing i with
  | nil => exact .nil
  | cons x l ih =>
    cases i with
    | zero =>
      obtain rfl : x = e := by simpa using he
      exact .cons hkept (SameContents.refl content l)
    | succ i => exact .cons (content.refl x) (ih (by simpa using he))

theorem change_content {c : Change α} (h : (l.change c).2 = .zero) :
    SameContents l.entries (l.change c).1.entries := by
  cases c with
  | clear =>
    have hnil : l.entries = [] := List.length_eq_zero_iff.mp (congrArg Summary.removed h)
    rw [hnil]
    exact .nil
  | insert a =>
    rw [change] at h ⊢
    cases hi : l.position? a with
    | none =>
      rw [insert_of_none hi] at h
      exact absurd (congrArg Summary.inserted h) Nat.one_ne_zero
    | some i =>
      obtain ⟨e, he, hinsert⟩ := insert_of_some hi
      rw [hinsert] at h ⊢
      have hkept : Model.hasSameContent e a = true := by simpa [Summary.zero] using congrArg Summary.changed h
      exact .set content he hkept
  | remove a =>
    rw [change] at h ⊢
    cases hi : l.position? a with
    | none =>
      rw [remove_of_none hi]
      exact .refl content l.entries
    | some i =>
      rw [remove_of_some hi] at h
      exact absurd (congrArg Summary.removed h) Nat.one_ne_zero

theorem changeAll_content {cs : List (Change α)} (h : (l.changeAll cs).2 = .zero) :
    SameContents l.entries (l.changeAll cs).1.entries := by
  induction cs generalizing l with
  | nil => exact .refl content l.entries
  | cons c cs ih =>
    obtain ⟨hfirst, hrest⟩ := Summary.add_eq_zero_iff.mp h
    exact (change_content content hfirst).trans content (ih hrest)

end Content

theorem commit_accounts (order : Comparator α) [TransCmp order]
    (same : Equivalence fun a b : α => Model.isSame a b = true) (es : List (Editor α)) (e : Editor α) :
    let l := (create order).commitAll es
    let (final, s) := l.commit e
    final.size + s.removed = l.size + s.inserted ∧
    s.inserted + s.changed + l.renewals e.changes = (e.replacement.getD []).length + e.additions.length ∧
    (Equivalence (fun a b : α => Model.hasSameContent a b = true) → s = .zero →
      final.size = l.size ∧ SameContents l.entries final.entries) := by
  intro l
  have htidy : Tidy order l := tidy_commitAll same es
  rw [commit_eq]
  refine ⟨l.changeAll_size e.changes, ?_, fun content hzero => ?_⟩
  · rw [← countP_changes e]
    exact htidy.changeAll_insertions same e.changes
  · have hcontent := changeAll_content content hzero
    exact ⟨hcontent.length_eq.symm, hcontent⟩

structure Card where
  rank : Nat
  id : Nat
  title : String
  deriving DecidableEq

instance : Model Card := ⟨fun a b => a.id == b.id, fun a b => a.title == b.title⟩

theorem Card.isSame_iff {a b : Card} : Model.isSame a b = true ↔ a.id = b.id := beq_iff_eq

theorem Card.hasSameContent_iff {a b : Card} : Model.hasSameContent a b = true ↔ a.title = b.title := beq_iff_eq

theorem Card.isSame_equivalence : Equivalence fun a b : Card => Model.isSame a b = true where
  refl _ := isSame_iff.mpr rfl
  symm h := isSame_iff.mpr (isSame_iff.mp h).symm
  trans h k := isSame_iff.mpr ((isSame_iff.mp h).trans (isSame_iff.mp k))

theorem Card.hasSameContent_equivalence : Equivalence fun a b : Card => Model.hasSameContent a b = true where
  refl _ := hasSameContent_iff.mpr rfl
  symm h := hasSameContent_iff.mpr (hasSameContent_iff.mp h).symm
  trans h k := hasSameContent_iff.mpr ((hasSameContent_iff.mp h).trans (hasSameContent_iff.mp k))

theorem commit_accounts_cards :
    let order := compareOn Card.rank
    let l := (create order).commitAll [Editor.ofEdits [.addAll [⟨1, 7, "home"⟩, ⟨1, 3, "mail"⟩]]]
    let mixed := Editor.ofEdits [.addAll [⟨1, 7, "news"⟩, ⟨1, 7, "news"⟩, ⟨0, 7, "news"⟩], .remove ⟨1, 3, ""⟩]
    let idle := Editor.ofEdits [.addAll [⟨1, 3, "mail"⟩, ⟨1, 7, "home"⟩], .remove ⟨0, 7, "home"⟩]
    (l.commit mixed).2 = ⟨1, 1, 1⟩ ∧ 1 + 1 + l.renewals mixed.changes = 0 + 3 ∧
      (l.commit idle).2 = .zero ∧ SameContents l.entries (l.commit idle).1.entries := by
  intro order l mixed idle
  have hmixed : (l.commit mixed).2 = ⟨1, 1, 1⟩ := by decide +kernel
  have hidle : (l.commit idle).2 = .zero := by decide +kernel
  have haccounts : (l.commit mixed).2.inserted + (l.commit mixed).2.changed + l.renewals mixed.changes = 0 + 3 :=
    (commit_accounts order Card.isSame_equivalence _ mixed).2.1
  rw [hmixed] at haccounts
  have hcontent := (commit_accounts order Card.isSame_equivalence _ idle).2.2 Card.hasSameContent_equivalence hidle
  exact ⟨hmixed, haccounts, hidle, hcontent.2⟩

end SortedList

end TabDeck
