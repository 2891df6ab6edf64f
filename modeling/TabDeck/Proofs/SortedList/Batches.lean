import Mathlib.Data.List.Induction
import TabDeck.Proofs.SortedList.Accounts

namespace TabDeck

open Std

variable {α : Type} [Model α] {order : Comparator α}

section Twins

variable {l : List α}

theorem find?_twin (a : α) (l : List α) : l.find? (isTwin order a) = (order.equals a l).find? (isTwin order a) := by
  rw [Comparator.equals, List.find?_filter]
  congr 1
  funext e
  cases h : order e a <;> simp [isTwin, h]

variable [TransCmp order]

theorem stableSort_putTwin_comm {a b : α} (hne : order a b ≠ .eq) (l : List α) :
    order.stableSort (putTwin order b (putTwin order a l)) =
      order.stableSort (putTwin order a (putTwin order b l)) := by
  apply (Comparator.sorted_stableSort _).eq_stableSort
  intro c
  rw [Comparator.equals_stableSort]
  -- At most one of the two models is put into the run of `c`.
  by_cases hca : order c a = .eq
  · have hcb : order c b ≠ .eq := fun hcb => hne (TransCmp.eq_trans (OrientedCmp.eq_symm hca) hcb)
    rw [equals_putTwin_of_ne hcb, equals_putTwin_of_eq hca, equals_putTwin_of_eq hca, equals_putTwin_of_ne hcb]
  · rw [equals_putTwin_of_ne hca]
    by_cases hcb : order c b = .eq
    · rw [equals_putTwin_of_eq hcb, equals_putTwin_of_eq hcb, equals_putTwin_of_ne hca]
    · rw [equals_putTwin_of_ne hcb, equals_putTwin_of_ne hcb, equals_putTwin_of_ne hca]

end Twins

section Latest

def overwrite (order : Comparator α) (a e : α) : α := if isTwin order a e then a else e

def latest (order : Comparator α) (batch : List α) (e : α) : α := batch.foldl (fun e a => overwrite order a e) e

def putAll (order : Comparator α) (batch l : List α) : List α := batch.foldl (fun l a => putTwin order a l) l

theorem latest_concat (batch : List α) (a e : α) :
    latest order (batch ++ [a]) e = overwrite order a (latest order batch e) := List.foldl_concat ..

theorem putAll_concat (batch : List α) (a : α) (l : List α) :
    putAll order (batch ++ [a]) l = putTwin order a (putAll order batch l) := List.foldl_concat ..

variable [TransCmp order] (same : Equivalence fun a b : α => Model.isSame a b = true)
include same

theorem isTwin_overwrite {a b e : α} (h : isTwin order b e = true) : isTwin order b (overwrite order a e) = true := by
  rw [overwrite]
  split
  · rename_i hea
    exact isTwin_trans same h (isTwin_symm same hea)
  · exact h

theorem isTwin_latest {b e : α} (h : isTwin order b e = true) (batch : List α) :
    isTwin order b (latest order batch e) = true := by
  induction batch generalizing e with
  | nil => exact h
  | cons a batch ih => exact ih (isTwin_overwrite same h)

theorem distinct_putAll {l : List α} (h : Distinct order l) (batch : List α) :
    Distinct order (putAll order batch l) := by
  induction batch generalizing l with
  | nil => exact h
  | cons a batch ih => exact ih (h.putTwin same a)

theorem putTwin_eq_map {l : List α} (h : Distinct order l) {a : α} (ha : ∃ e ∈ l, isTwin order a e = true) :
    putTwin order a l = l.map (overwrite order a) := by
  induction l with
  | nil =>
    obtain ⟨e, he, -⟩ := ha
    cases he
  | cons x l ih =>
    obtain ⟨hx, hl⟩ := List.pairwise_cons.mp h
    rw [putTwin, List.map_cons, overwrite]
    split
    · rename_i hxa
      have hothers : ∀ e ∈ l, overwrite order a e = e := by
        intro e he
        refine if_neg fun hea => ?_
        obtain ⟨hequal, hsame⟩ := isTwin_iff.mp (isTwin_trans same (isTwin_symm same hea) hxa)
        rw [hx e he hequal] at hsame
        cases hsame
      rw [List.map_congr_left hothers, List.map_id']
    · rename_i hxa
      obtain ⟨e, he, hea⟩ := ha
      have hel : e ∈ l := by
        rcases List.mem_cons.mp he with rfl | hel
        · exact absurd hea hxa
        · exact hel
      rw [ih hl ⟨e, hel, hea⟩]

theorem putAll_eq_map {batch l : List α} (h : Distinct order l)
    (hall : ∀ a ∈ batch, ∃ e ∈ l, isTwin order a e = true) : putAll order batch l = l.map (latest order batch) := by
  induction batch generalizing l with
  | nil => exact (List.map_id l).symm
  | cons a batch ih =>
    have hput := putTwin_eq_map same h (hall a List.mem_cons_self)
    have hkeeps : ∀ b ∈ batch, ∃ e ∈ putTwin order a l, isTwin order b e = true := by
      intro b hb
      obtain ⟨e, he, heb⟩ := hall b (List.mem_cons_of_mem a hb)
      rw [hput]
      exact ⟨overwrite order a e, List.mem_map_of_mem he, isTwin_overwrite same heb⟩
    calc putAll order (a :: batch) l = (putTwin order a l).map (latest order batch) := ih (h.putTwin same a) hkeeps
      _ = l.map (latest order (a :: batch)) := by
        rw [hput, List.map_map]
        rfl

theorem exists_twin_putTwin {b : α} {l : List α} (h : ∃ e ∈ l, isTwin order b e = true) (a : α) :
    ∃ e ∈ putTwin order a l, isTwin order b e = true := by
  obtain ⟨e, he, heb⟩ := h
  rcases mem_putTwin_or he with he | hea
  · exact ⟨e, he, heb⟩
  · exact ⟨a, mem_putTwin_self order a l, isTwin_trans same heb (isTwin_symm same hea)⟩

theorem exists_twin_putAll {b : α} {l : List α} (h : ∃ e ∈ l, isTwin order b e = true) (batch : List α) :
    ∃ e ∈ putAll order batch l, isTwin order b e = true := by
  induction batch generalizing l with
  | nil => exact h
  | cons a batch ih => exact ih (exists_twin_putTwin same h a)

theorem exists_twin_of_mem {a : α} {batch : List α} (ha : a ∈ batch) (l : List α) :
    ∃ e ∈ putAll order batch l, isTwin order a e = true := by
  induction batch generalizing l with
  | nil => cases ha
  | cons b batch ih =>
    rcases List.mem_cons.mp ha with rfl | ha
    · exact exists_twin_putAll same ⟨a, mem_putTwin_self order a l, isTwin_refl same a⟩ batch
    · exact ih ha (putTwin order b l)

theorem eq_or_mem_of_putTwin {a e : α} {l : List α} (h : Distinct order l) (he : e ∈ putTwin order a l) :
    e = a ∨ e ∈ l ∧ isTwin order a e = false := by
  cases hea : isTwin order a e with
  | true =>
    exact .inl ((h.putTwin same a).eq_of_isTwin same he (mem_putTwin_self order a l) hea (isTwin_refl same a))
  | false =>
    refine (mem_putTwin he).imp_right fun hl => ⟨hl, rfl⟩

theorem latest_eq {batch l : List α} (h : Distinct order l) {e : α} (he : e ∈ putAll order batch l) :
    latest order batch e = e := by
  -- From the end of the batch: its last model replaces its twin, and all other entries are as the rest left them.
  induction batch using List.reverseRecOn generalizing e with
  | nil => rfl
  | append_singleton batch a ih =>
    rw [putAll_concat] at he
    rw [latest_concat]
    rcases eq_or_mem_of_putTwin same (distinct_putAll same h batch) he with rfl | ⟨he, hea⟩
    · exact if_pos (isTwin_latest same (isTwin_refl same e) batch)
    · rw [ih he]
      exact if_neg (Bool.eq_false_iff.mp hea)

theorem putAll_twice {l : List α} (h : Distinct order l) (batch : List α) :
    putAll order batch (putAll order batch l) = putAll order batch l := by
  rw [putAll_eq_map same (distinct_putAll same h batch) fun a ha => exists_twin_of_mem same ha l]
  exact (List.map_congr_left fun e he => latest_eq same h he).trans (List.map_id' _)

end Latest

namespace SortedList

variable {l : SortedList α}

namespace Summary

theorem add_left_comm (s t u : Summary) : s.add (t.add u) = t.add (s.add u) := by
  simp only [add, mk.injEq]
  omega

end Summary

theorem insert_removed (l : SortedList α) (a : α) : (l.insert a).2.removed = 0 := by
  cases hi : l.position? a with
  | none => rw [insert_of_none hi]
  | some i =>
    obtain ⟨e, -, hinsert⟩ := insert_of_some hi
    rw [hinsert]

theorem changeAll_insert_removed (l : SortedList α) (batch : List α) :
    (l.changeAll (batch.map .insert)).2.removed = 0 := by
  induction batch generalizing l with
  | nil => rfl
  | cons a batch ih =>
    have hfirst := l.insert_removed a
    have hrest := ih (l.insert a).1
    simp only [List.map_cons, changeAll, change, Summary.add]
    omega

variable [TransCmp order]

theorem Tidy.insert_comm (h : Tidy order l) {a b : α} (hne : order a b ≠ .eq) :
    ((l.insert a).1.insert b).1 = ((l.insert b).1.insert a).1 := by
  have hab := h.changeAll_eq [.insert a, .insert b]
  have hba := h.changeAll_eq [.insert b, .insert a]
  calc ((l.insert a).1.insert b).1 = ⟨order, order.stableSort (putTwin order b (putTwin order a l.entries))⟩ := hab
    _ = ⟨order, order.stableSort (putTwin order a (putTwin order b l.entries))⟩ := by rw [stableSort_putTwin_comm hne]
    _ = ((l.insert b).1.insert a).1 := hba.symm

section Permuted

variable (same : Equivalence fun a b : α => Model.isSame a b = true)
include same

theorem Tidy.insert_summary_after (h : Tidy order l) {a b : α} (hne : order b a ≠ .eq) :
    ((l.insert a).1.insert b).2 = (l.insert b).2 := by
  have hafter : Tidy order (l.insert a).1 := h.change same (.insert a)
  have hentries : (l.insert a).1.entries = order.stableSort (putTwin order a l.entries) :=
    congrArg SortedList.entries (h.changeAll_eq [.insert a])
  -- What is reported depends on the run of `b` alone, and `a` is put into another one.
  have hrun : order.equals b (l.insert a).1.entries = order.equals b l.entries := by
    rw [hentries, Comparator.equals_stableSort, equals_putTwin_of_ne hne]
  rw [hafter.insert_summary, h.insert_summary, find?_twin b (l.insert a).1.entries, hrun, ← find?_twin]

theorem Tidy.changeAll_perm {batch batch' : List α} (hperm : batch.Perm batch') (h : Tidy order l)
    (hne : batch.Pairwise fun a b => order a b ≠ .eq) :
    l.changeAll (batch.map .insert) = l.changeAll (batch'.map .insert) := by
  induction hperm generalizing l with
  | nil => rfl
  | cons a _ ih =>
    have hrest := ih (h.change same (.insert a)) (List.pairwise_cons.mp hne).2
    simp only [List.map_cons, SortedList.changeAll, hrest]
  | swap a b batch =>
    have hba : order b a ≠ .eq := (List.pairwise_cons.mp hne).1 a List.mem_cons_self
    have hab : order a b ≠ .eq := fun hab => hba (OrientedCmp.eq_symm hab)
    simp only [List.map_cons, SortedList.changeAll, SortedList.change, h.insert_comm hba,
      h.insert_summary_after same hba, h.insert_summary_after same hab, Summary.add_left_comm]
  | trans hfirst _ ih ih' =>
    have hsymm : ∀ {a b : α}, order a b ≠ .eq → order b a ≠ .eq := fun hab hba => hab (OrientedCmp.eq_symm hba)
    exact (ih h hne).trans (ih' h (hfirst.pairwise hne hsymm))

end Permuted

theorem commit_addAll (l : SortedList α) (batch : List α) :
    l.commit (.ofEdits [.addAll batch]) = l.changeAll (batch.map .insert) := l.commit_eq _

theorem commit_addAll_perm (order : Comparator α) [TransCmp order]
    (same : Equivalence fun a b : α => Model.isSame a b = true) (es : List (Editor α)) {batch batch' : List α}
    (hperm : batch.Perm batch') (hne : batch.Pairwise fun a b => order a b ≠ .eq) :
    let l := (create order).commitAll es
    l.commit (.ofEdits [.addAll batch]) = l.commit (.ofEdits [.addAll batch']) := by
  intro l
  have htidy : Tidy order l := tidy_commitAll same es
  rw [commit_addAll, commit_addAll]
  exact htidy.changeAll_perm same hperm hne

theorem commit_addAll_perm_cards :
    let order := compareOn Card.rank
    let l := (create order).commitAll [Editor.ofEdits [.addAll [⟨2, 7, "home"⟩, ⟨1, 3, "mail"⟩]]]
    let batch := [⟨2, 7, "news"⟩, ⟨0, 4, "maps"⟩, ⟨1, 9, "chat"⟩]
    let batch' := [⟨1, 9, "chat"⟩, ⟨2, 7, "news"⟩, ⟨0, 4, "maps"⟩]
    batch.Perm batch' ∧ (batch.Pairwise fun a b => order a b ≠ .eq) ∧
      l.commit (.ofEdits [.addAll batch]) = l.commit (.ofEdits [.addAll batch']) := by
  intro order l batch batch'
  have hperm : batch.Perm batch' := by decide
  have hne : batch.Pairwise fun a b => order a b ≠ .eq := by decide
  exact ⟨hperm, hne, commit_addAll_perm order Card.isSame_equivalence _ hperm hne⟩

theorem commit_addAll_twice (order : Comparator α) [TransCmp order]
    (same : Equivalence fun a b : α => Model.isSame a b = true) (es : List (Editor α)) (batch : List α) :
    let e := Editor.ofEdits [.addAll batch]
    let l := (((create order).commitAll es).commit e).1
    (l.commit e).1 = l ∧ (l.commit e).2.inserted = 0 ∧ (l.commit e).2.removed = 0 := by
  intro e l
  have hstart : Tidy order ((create order).commitAll es) := tidy_commitAll same es
  have hputs (r : List α) : (batch.map Change.insert).foldl (naiveChange order) r = putAll order batch r :=
    List.foldl_map
  have hfirst : l = ⟨order, order.stableSort (putAll order batch ((create order).commitAll es).entries)⟩ := by
    rw [← hputs, ← hstart.changeAll_eq, ← commit_addAll]
  have hsecond : (l.commit e).1 = l := by
    calc (l.commit e).1 = (l.changeAll (batch.map .insert)).1 := by rw [commit_addAll]
      _ = l := by rw [hfirst, changeAll_stableSort, hputs, putAll_twice same hstart.distinct]
  have hremoved : (l.commit e).2.removed = 0 := by
    rw [commit_addAll]
    exact l.changeAll_insert_removed batch
  have hsize : (l.commit e).1.size + (l.commit e).2.removed = l.size + (l.commit e).2.inserted := by
    rw [commit_eq]
    exact l.changeAll_size e.changes
  -- The length is the same and nothing was removed, so nothing was inserted either.
  rw [hsecond, hremoved] at hsize
  exact ⟨hsecond, by omega, hremoved⟩

theorem commit_addAll_twice_cards :
    let order := compareOn Card.rank
    let e := Editor.ofEdits [.addAll [⟨1, 7, "home"⟩, ⟨1, 3, "mail"⟩, ⟨1, 7, "news"⟩]]
    let l := (((create order).commitAll [Editor.ofEdits [.add ⟨1, 7, "maps"⟩]]).commit e).1
    (l.commit e).1 = l ∧ (l.commit e).2.inserted = 0 ∧ (l.commit e).2.removed = 0 ∧ (l.commit e).2.changed = 2 := by
  intro order e l
  have hchanged : (l.commit e).2.changed = 2 := by decide +kernel
  obtain ⟨hlist, hinserted, hremoved⟩ := commit_addAll_twice order Card.isSame_equivalence
    [Editor.ofEdits [.add ⟨1, 7, "maps"⟩]] [⟨1, 7, "home"⟩, ⟨1, 3, "mail"⟩, ⟨1, 7, "news"⟩]
  exact ⟨hlist, hinserted, hremoved, hchanged⟩

end SortedList

end TabDeck
