import Mathlib.Data.List.Dedup
import TabDeck.Proofs.Recycler.Sorted

namespace TabDeck.Recycler.Attached

open Std

variable {W A X C I V P E : Type}

theorem dedup_concat {α : Type} [DecidableEq α] (l : List α) (a : α) :
    (l ++ [a]).dedup = l.dedup.filter (· != a) ++ [a] := by
  induction l with
  | nil => rfl
  | cons b l ih =>
    rw [List.cons_append]
    by_cases hb : b ∈ l
    · rw [List.dedup_cons_of_mem hb, List.dedup_cons_of_mem (List.mem_append_left _ hb), ih]
    · by_cases ha : b = a
      · rw [List.dedup_cons_of_notMem hb, List.dedup_cons_of_mem (by simp [ha]), ih,
          List.filter_cons_of_neg (by simp [ha])]
      · rw [List.dedup_cons_of_notMem hb, List.dedup_cons_of_notMem (by simp [hb, ha]), ih,
          List.filter_cons_of_pos (by simp [ha]), List.cons_append]

def arranged (compare : Option (Comparator I)) (items : List I) : List I :=
  compare.elim items fun order => order.stableSort items

theorem arranged_nil (compare : Option (Comparator I)) : arranged compare [] = [] := by
  cases compare with
  | none => rfl
  | some order => exact List.mergeSort_nil

variable [DecidableEq I]

section Items

variable {a after : Attached A X C I V} {events : List (Event A X C I V P)} {item : I} {container : Option C} {view : V}

theorem Made.items_eq (h : a.Made after events item container view) :
    after.recycler.items = a.recycler.items ++ [item] := by
  rw [Recycler.items, h.active, List.map_append]
  rfl

theorem Taken.items_eq (h : a.Taken after events item view) :
    after.recycler.items = a.recycler.items.filter (· != item) := by
  rw [Recycler.items, h.active, Recycler.items, List.filter_map]
  rfl

theorem Cleared.items_eq {views : List (I × V)} {cleared : List C} (h : a.Cleared after events views cleared) :
    after.recycler.items = [] := by
  rw [Recycler.items, h.active]
  rfl

omit [DecidableEq I] in
theorem Kept.items_eq (h : a.Kept after events) : after.recycler.items = a.recycler.items := by
  rw [Recycler.items, h.active]
  rfl

end Items

def Entry.created? (e : Entry W A X C I V P E) : Option I :=
  match e.op with
  | .basic (.inflate item _ _) => if e.creates item then some item else none
  | _ => none

/-- The active items in the order of the inflations that made their views; of several, the last one counts. -/
def Journal.creation (j : Journal W A X C I V P E) : List I :=
  ((j.entries.filterMap Entry.created?).dedup).filter fun item => j.views.recycler.isActive item

section Creation

variable {e : Entry W A X C I V P E} {item : I}

theorem created?_eq_some (h : e.before.Change e.after e.turn.events e.op) (hc : e.creates item = true) :
    e.created? = some item := by
  obtain ⟨container, params, view, hop, -⟩ := (creates_iff h).mp hc
  rw [Entry.created?, hop]
  exact if_pos hc

theorem creates_of_created? (h : e.created? = some item) : e.creates item = true := by
  unfold Entry.created? at h
  split at h
  · split at h
    · rename_i hc
      obtain rfl := Option.some.inj h
      exact hc
    · cases h
  · cases h

theorem created?_eq_none (h : ∀ item, e.creates item = false) : e.created? = none := by
  rw [Option.eq_none_iff_forall_ne_some]
  intro item hitem
  have hc := creates_of_created? hitem
  rw [h item] at hc
  cases hc

theorem not_creates (h : ∀ item, e.before.recycler.view? item = none → e.after.recycler.view? item = none) (item : I) :
    e.creates item = false := by
  rw [Bool.eq_false_iff]
  intro hc
  obtain ⟨hbefore, v, hafter⟩ := creates_iff_view?.mp hc
  rw [h item hbefore] at hafter
  cases hafter

theorem isActive_congr {r r' : Recycler A X I V} (h : r.view? item = r'.view? item) :
    r.isActive item = r'.isActive item := congrArg Option.isSome h

theorem creation_change {made : List I} (hc : e.before.Change e.after e.turn.events e.op)
    (h : e.before.recycler.items = made.dedup.filter fun item => e.before.recycler.isActive item) :
    e.after.recycler.items =
      (made ++ e.created?.toList).dedup.filter fun item => e.after.recycler.isActive item := by
  cases hc with
  | made item container params view hop hm =>
    have hcreated : e.created? = some item :=
      created?_eq_some (.made item container params view hop hm)
        (creates_iff_view?.mpr ⟨hm.inactive, view, hm.view?_self⟩)
    have hactive : e.after.recycler.isActive item = true := isActive_iff.mpr ⟨view, hm.view?_self⟩
    rw [hm.items_eq, hcreated, Option.toList_some, dedup_concat, List.filter_append, List.filter_filter, h,
      List.filter_cons_of_pos (by simpa using hactive), List.filter_nil]
    congr 1
    apply List.filter_congr
    intro other _
    by_cases hi : other = item
    · rw [hi, not_isActive_iff.mpr hm.inactive]
      simp
    · rw [isActive_congr (hm.view?_of_ne hi)]
      simp [hi]
  | taken item view ht =>
    have hnone : e.created? = none := by
      apply created?_eq_none
      apply not_creates
      intro other ho
      by_cases hi : other = item
      · rw [hi, ht.view?_self]
      · rw [ht.view?_of_ne hi, ho]
    rw [ht.items_eq, hnone, Option.toList_none, List.append_nil, h, List.filter_filter]
    apply List.filter_congr
    intro other _
    by_cases hi : other = item
    · rw [hi, not_isActive_iff.mpr ht.view?_self]
      simp
    · rw [isActive_congr (ht.view?_of_ne hi)]
      simp [hi]
  | cleared views cleared hr =>
    rw [hr.items_eq]
    symm
    apply List.filter_eq_nil_iff.mpr
    intro item _
    rw [not_isActive_iff.mpr (hr.view? item)]
    simp
  | kept hk =>
    have hnone : e.created? = none := by
      apply created?_eq_none
      apply not_creates
      intro other ho
      rw [hk.view?, ho]
    rw [hk.items_eq, hnone, Option.toList_none, List.append_nil]
    apply h.trans
    apply List.filter_congr
    intro item _
    rw [isActive_congr (hk.view? item)]

end Creation

section Change

variable {a after : Attached A X C I V} {events : List (Event A X C I V P)} {compare : Option (Comparator I)}

theorem arranged_change {op : Op A C I P} (htotal : ∀ order ∈ compare, TransCmp order) (hcoherent : a.Coherent)
    (hcmp : a.comparator = compare) (h : a.order = arranged compare a.recycler.items)
    (hc : a.Change after events op) : after.order = arranged compare after.recycler.items := by
  cases hc with
  | made item container params view hop hm =>
    rw [hm.order, hm.items_eq]
    cases compare with
    | none =>
      rw [insertionIndex, hcmp, insertIdx_eq_take_drop (Nat.le_refl _), List.take_length, List.drop_length, h]
      rfl
    | some order =>
      have : TransCmp order := htotal order rfl
      rw [insertionIndex_eq hcmp, h]
      exact (Comparator.stableSort_concat a.recycler.items item).symm
  | taken item view ht =>
    rw [ht.order, hcoherent.distinct.erase_eq_filter, ht.items_eq, h]
    cases compare with
    | none => rfl
    | some order =>
      have : TransCmp order := htotal order rfl
      exact Comparator.filter_stableSort (· != item) a.recycler.items
  | cleared views cleared hr =>
    rw [hr.order, hr.items_eq, arranged_nil]
  | kept hk =>
    rw [hk.order, hk.items_eq]
    exact h

end Change

section Journals

variable {text : I → String} {w : W} {start : Attached A X C I V}

theorem journal_creation (hempty : start.recycler.active = []) (ms : List (Move W A X C I V P E)) :
    (journal text start w ms).views.recycler.items = (journal text start w ms).creation := by
  induction ms using List.reverseRecOn with
  | nil =>
    change start.recycler.items = []
    rw [Recycler.items, hempty]
    rfl
  | append_singleton ms m ih =>
    rw [Journal.creation, entries_concat, journal_concat, List.filterMap_append, filterMap_cons_toList,
      List.filterMap_nil, List.append_nil]
    exact creation_change (entry_change _ m) ih

theorem journal_order (hs : start.Coherent) {compare : Option (Comparator I)}
    (htotal : ∀ order ∈ compare, TransCmp order) (past recent : List (Move W A X C I V P E))
    (hempty : (journal text start w past).views.order = [])
    (hforce : ∀ now m, now ++ [m] <+: recent → (journal text start w (past ++ now)).views.comparator = compare) :
    (journal text start w (past ++ recent)).views.order =
      arranged compare (journal text start w (past ++ recent)).views.recycler.items := by
  induction recent using List.reverseRecOn with
  | nil =>
    have hactive : (journal text start w past).views.order.Perm (journal text start w past).views.recycler.items :=
      (journal_coherent hs past).active
    rw [hempty] at hactive
    rw [List.append_nil, hempty, ← hactive.nil_eq, arranged_nil]
  | append_singleton recent m ih =>
    have hbefore := ih fun now m' h => hforce now m' (h.trans (List.prefix_append ..))
    rw [← List.append_assoc, journal_concat]
    exact arranged_change htotal (journal_coherent hs _) (hforce recent m List.prefix_rfl) hbefore (entry_change _ m)

theorem journal_arranged (context : X) (default : Option C) (start : Option (Comparator I))
    {compare : Option (Comparator I)} (htotal : ∀ order ∈ compare, TransCmp order)
    (past recent : List (Move W A X C I V P E))
    (hempty : (journal text (create context default start) w past).views.order = [])
    (hforce : ∀ now m, now ++ [m] <+: recent →
      (journal text (create context default start) w (past ++ now)).views.comparator = compare) :
    let j := journal text (create context default start) w (past ++ recent)
    j.views.order = arranged compare j.creation := by
  intro j
  rw [← journal_creation rfl]
  exact journal_order (.create context default start) htotal past recent hempty hforce

theorem journal_arranged_numbered :
    let order : Comparator Nat := compareOn (· % 10)
    let inflate (item : Nat) : Op Unit Bool Nat Unit := .basic (.inflate item none ())
    let past := numbered [inflate 4, .basic .removeAll]
    let recent := [inflate 15, inflate 3, inflate 25, inflate 0, .basic (.remove 15), inflate 15, inflate 25].map
      (⟨numbering, ·⟩)
    let run := journal toString (create () (some true) (some order)) 0
    (run past).views.order = [] ∧
      (∀ now m, now ++ [m] <+: recent → (run (past ++ now)).views.comparator = some order) ∧
      (run (past ++ recent)).views.order = order.stableSort (run (past ++ recent)).creation ∧
      (run (past ++ recent)).creation = [3, 25, 0, 15] ∧ (run (past ++ recent)).views.order = [0, 3, 25, 15] := by
  intro order inflate past recent run
  have hempty : (run past).views.order = [] := by decide +kernel
  have hsteady : ∀ m ∈ past ++ recent, ∀ compare, m.op = .setComparator compare → compare = some order := by
    simp [past, recent, numbered, inflate]
  have hforce : ∀ now m, now ++ [m] <+: recent → (run (past ++ now)).views.comparator = some order := by
    intro now m hnow
    apply journal_comparator rfl
    intro m' hm'
    apply hsteady m'
    rcases List.mem_append.mp hm' with hm' | hm'
    · exact List.mem_append_left _ hm'
    · exact List.mem_append_right _ (hnow.subset (List.mem_append_left _ hm'))
  have htotal : ∀ order' ∈ some order, TransCmp order' := by
    rintro _ ⟨⟩
    exact inferInstanceAs (TransCmp (compareOn (· % 10)))
  exact ⟨hempty, hforce, journal_arranged () (some true) (some order) htotal past recent hempty hforce,
    by decide +kernel, by decide +kernel⟩

end Journals

end TabDeck.Recycler.Attached
