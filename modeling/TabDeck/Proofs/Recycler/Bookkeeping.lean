import TabDeck.Proofs.Order.Boundary
import TabDeck.Proofs.Recycler.Journal

namespace TabDeck.Recycler.Attached

variable {W A X C I V P E : Type} [DecidableEq I]

structure Coherent (a : Attached A X C I V) : Prop where
  distinct : a.order.Nodup
  active : a.order.Perm a.recycler.items
  recorded (item : I) : a.recycler.view? item = none → a.parents.lookup item = none

section Coherent

variable {a after : Attached A X C I V} {events : List (Event A X C I V P)} {item : I} {container : Option C} {view : V}

theorem mem_items_iff : item ∈ a.recycler.items ↔ ∃ v, a.recycler.view? item = some v :=
  isSome_lookup_iff.symm.trans Option.isSome_iff_exists

theorem Coherent.mem_order_iff (h : a.Coherent) : item ∈ a.order ↔ ∃ v, a.recycler.view? item = some v :=
  h.active.mem_iff.trans mem_items_iff

theorem Coherent.notMem_order (h : a.Coherent) (hv : a.recycler.view? item = none) : item ∉ a.order := by
  rw [h.mem_order_iff, hv]
  nofun

theorem Coherent.order_eq_nil (h : a.Coherent) (hempty : a.recycler.active = []) : a.order = [] := by
  have hperm := h.active
  rw [Recycler.items, hempty] at hperm
  exact hperm.eq_nil

omit [DecidableEq I] in
theorem insertionIndex_le (item : I) : a.insertionIndex item ≤ a.order.length := by
  unfold insertionIndex
  split
  · exact partitionPoint_le_length _ _
  · exact Nat.le_refl _

theorem Coherent.create (context : X) (container : Option C) (compare : Option (Comparator I)) :
    (create context container compare : Attached A X C I V).Coherent where
  distinct := List.nodup_nil
  active := .nil
  recorded _ _ := rfl

theorem Made.parents_of_ne {other : I} (hm : a.Made after events item container view) (hi : other ≠ item) :
    after.parents.lookup other = a.parents.lookup other := by
  rw [hm.parents]
  cases container with
  | none => rfl
  | some c => exact lookup_cons_of_ne hi

theorem Made.parents_self (h : a.Coherent) (hm : a.Made after events item container view) :
    after.parents.lookup item = container := by
  rw [hm.parents]
  cases container with
  | none => exact h.recorded item hm.inactive
  | some c => exact List.lookup_cons_self

theorem Coherent.made (h : a.Coherent) (hm : a.Made after events item container view) : after.Coherent := by
  have hperm : after.order.Perm (item :: a.order) := by
    rw [hm.order]
    exact List.perm_insertIdx item a.order (insertionIndex_le item)
  refine ⟨?_, ?_, ?_⟩
  · exact hperm.nodup_iff.mpr (List.nodup_cons.mpr ⟨h.notMem_order hm.inactive, h.distinct⟩)
  · have hitems : after.recycler.items = a.recycler.items ++ [item] := by
      rw [Recycler.items, hm.active, List.map_append]
      rfl
    rw [hitems]
    exact (hperm.trans (h.active.cons item)).trans (List.perm_append_singleton item _).symm
  · intro other ho
    have hi : other ≠ item := by
      rintro rfl
      rw [hm.view?_self] at ho
      cases ho
    rw [hm.view?_of_ne hi] at ho
    exact (hm.parents_of_ne hi).trans (h.recorded other ho)

theorem Coherent.taken (h : a.Coherent) (ht : a.Taken after events item view) : after.Coherent := by
  refine ⟨?_, ?_, ?_⟩
  · rw [ht.order]
    exact h.distinct.erase item
  · have hitems : after.recycler.items = a.recycler.items.erase item := by
      have hnodup : a.recycler.items.Nodup := h.active.nodup_iff.mp h.distinct
      rw [hnodup.erase_eq_filter, Recycler.items, ht.active, Recycler.items, List.filter_map]
      rfl
    rw [ht.order, hitems]
    exact h.active.erase item
  · intro other ho
    rw [ht.parents]
    by_cases hi : other = item
    · rw [hi]
      exact lookup_filter_self _
    · rw [ht.view?_of_ne hi] at ho
      rw [lookup_filter_of_ne hi]
      exact h.recorded other ho

theorem Coherent.parents_active (h : a.Coherent) {p : I × C} (hp : p ∈ a.parents) : p.1 ∈ a.recycler.items := by
  rw [mem_items_iff, ← Option.isSome_iff_exists, Option.isSome_iff_ne_none]
  intro hnone
  have hne := List.lookup_eq_none_iff.mp (h.recorded p.1 hnone) p hp
  simp at hne

theorem mem_forgetParents {parents : List (I × C)} {views : List (I × V)} {p : I × C}
    (hp : p ∈ forgetParents parents views) : p ∈ parents ∧ ∀ e ∈ views, p.1 ≠ e.1 := by
  induction views generalizing parents with
  | nil => exact ⟨hp, nofun⟩
  | cons e views ih =>
    obtain ⟨hfirst, hrest⟩ := ih hp
    obtain ⟨hmem, hne⟩ := List.mem_filter.mp hfirst
    exact ⟨hmem, List.forall_mem_cons.mpr ⟨bne_iff_ne.mp hne, hrest⟩⟩

theorem Coherent.forgetParents_eq_nil (h : a.Coherent) {views : List (I × V)} (hviews : views.Perm a.recycler.active) :
    forgetParents a.parents views = [] := by
  apply List.eq_nil_iff_forall_not_mem.mpr
  intro p hp
  obtain ⟨hmem, hne⟩ := mem_forgetParents hp
  obtain ⟨e, he, hkey⟩ := List.mem_map.mp (h.parents_active hmem)
  exact hne e (hviews.mem_iff.mpr he) hkey.symm

theorem Coherent.cleared {views : List (I × V)} {cleared : List C} (h : a.Coherent)
    (hc : a.Cleared after events views cleared) : after.Coherent := by
  refine ⟨?_, ?_, ?_⟩
  · rw [hc.order]
    exact List.nodup_nil
  · rw [hc.order, Recycler.items, hc.active]
    exact .nil
  · intro other _
    rw [hc.parents, h.forgetParents_eq_nil hc.drained]
    rfl

theorem Coherent.kept (h : a.Coherent) (hk : a.Kept after events) : after.Coherent := by
  refine ⟨?_, ?_, ?_⟩
  · rw [hk.order]
    exact h.distinct
  · rw [hk.order, Recycler.items, hk.active]
    exact h.active
  · intro other ho
    rw [hk.view?] at ho
    rw [hk.parents]
    exact h.recorded other ho

theorem Coherent.change {op : Op A C I P} (h : a.Coherent) (hc : a.Change after events op) : after.Coherent := by
  cases hc with
  | made item container params view hop hm => exact h.made hm
  | taken item view ht => exact h.taken ht
  | cleared views cleared hc => exact h.cleared hc
  | kept hk => exact h.kept hk

theorem parents_of_change {op : Op A C I P} (hc : a.Change after events op) {v v' : V}
    (hb : a.recycler.view? item = some v) (ha : after.recycler.view? item = some v') :
    after.parents.lookup item = a.parents.lookup item := by
  cases hc with
  | made made container params view hop hm =>
    refine hm.parents_of_ne ?_
    rintro rfl
    rw [hm.inactive] at hb
    cases hb
  | taken taken view ht =>
    have hi : item ≠ taken := by
      rintro rfl
      rw [ht.view?_self] at ha
      cases ha
    rw [ht.parents]
    exact lookup_filter_of_ne hi _
  | cleared views cleared hc =>
    rw [hc.view?] at ha
    cases ha
  | kept hk => rw [hk.parents]

theorem Coherent.parents_created {e : Entry W A X C I V P E} (h : e.before.Coherent)
    (hc : e.before.Change e.after e.turn.events e.op) (hm : e.creates item = true) :
    e.after.parents.lookup item = e.resolved := by
  obtain ⟨container, params, view, hop, hm⟩ := (creates_iff hc).mp hm
  rw [resolved_inflate hop]
  exact hm.parents_self h

end Coherent

variable {text : I → String} {w : W}

section Journals

variable {start : Attached A X C I V} {ms : List (Move W A X C I V P E)} {item : I} {v : V}

theorem journal_coherent (hs : start.Coherent) (ms : List (Move W A X C I V P E)) :
    (journal text start w ms).views.Coherent := by
  induction ms using List.reverseRecOn with
  | nil => exact hs
  | append_singleton ms m ih =>
    rw [journal_concat]
    exact ih.change (entry_change _ m)

theorem journal_creator (hs : start.Coherent) (hempty : start.order = [])
    (h : (journal text start w ms).views.recycler.view? item = some v) :
    ∃ e container params, creator? (journal text start w ms).entries item = some e ∧
      e.op = .basic (.inflate item container params) ∧
      (journal text start w ms).views.parents.lookup item = e.resolved := by
  induction ms using List.reverseRecOn generalizing v with
  | nil =>
    have hmem : item ∈ start.order := hs.mem_order_iff.mpr ⟨v, h⟩
    rw [hempty] at hmem
    exact absurd hmem List.not_mem_nil
  | append_singleton ms m ih =>
    let last := (journal text start w ms).entry text m
    have hc : last.before.Change last.after last.turn.events last.op := entry_change _ m
    have hcoherent : last.before.Coherent := journal_coherent hs ms
    rw [entries_concat, creator?_concat, journal_concat]
    rw [journal_concat] at h
    cases hb : (journal text start w ms).views.recycler.view? item with
    | some v' =>
      -- the view was there before, so the operation did not make it
      have hn : last.creates item = false := not_creates_of_view? hb
      obtain ⟨e, container, params, he, hop, hp⟩ := ih hb
      rw [hn]
      exact ⟨e, container, params, he, hop, (parents_of_change hc hb h).trans hp⟩
    | none =>
      have hm : last.creates item = true := creates_iff_view?.mpr ⟨hb, v, h⟩
      obtain ⟨container, params, -, hop, -⟩ := (creates_iff hc).mp hm
      rw [hm]
      exact ⟨_, container, params, rfl, hop, Coherent.parents_created hcoherent hc hm⟩

end Journals

structure Journal.Bookkeeping (j : Journal W A X C I V P E) : Prop where
  distinct : j.views.order.Nodup
  active (item : I) : item ∈ j.views.order ↔ j.views.recycler.isActive item = true
  counted : j.views.count = j.views.order.length
  recorded (item : I) (c : C) : j.views.parents.lookup item = some c ↔
    j.views.recycler.isActive item = true ∧ ∃ e, creator? j.entries item = some e ∧ e.resolved = some c
  created (item : I) : j.views.recycler.isActive item = true →
    ∃ e container params, creator? j.entries item = some e ∧ e.op = .basic (.inflate item container params)

theorem journal_bookkeeping (context : X) (container : Option C) (compare : Option (Comparator I))
    (ms : List (Move W A X C I V P E)) : (journal text (create context container compare) w ms).Bookkeeping := by
  have hs : (create context container compare : Attached A X C I V).Coherent := .create context container compare
  have hc : (journal text (create context container compare) w ms).views.Coherent := journal_coherent hs ms
  refine ⟨hc.distinct, ?_, ?_, ?_, ?_⟩
  · intro item
    rw [hc.mem_order_iff, isActive_iff]
  · rw [hc.active.length_eq, Recycler.items, List.length_map]
    rfl
  · intro item c
    rw [isActive_iff]
    constructor
    · intro hp
      cases hv : (journal text (create context container compare) w ms).views.recycler.view? item with
      | none =>
        rw [hc.recorded item hv] at hp
        cases hp
      | some v =>
        obtain ⟨e, _, _, he, -, hr⟩ := journal_creator hs rfl hv
        exact ⟨⟨v, rfl⟩, e, he, hr.symm.trans hp⟩
    · rintro ⟨⟨v, hv⟩, e, he, hr⟩
      obtain ⟨e', _, _, he', -, hp⟩ := journal_creator hs rfl hv
      obtain rfl : e = e' := Option.some.inj (he.symm.trans he')
      rw [hp, hr]
  · intro item ha
    obtain ⟨v, hv⟩ := isActive_iff.mp ha
    obtain ⟨e, container, params, he, hop, -⟩ := journal_creator hs rfl hv
    exact ⟨e, container, params, he, hop⟩

end TabDeck.Recycler.Attached
