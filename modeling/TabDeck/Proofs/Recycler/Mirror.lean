import Mathlib.Data.List.InsertIdx
import Mathlib.Data.List.Nodup
import TabDeck.Proofs.Recycler.Bookkeeping
import TabDeck.Proofs.Recycler.Children
/-!
Containers show the views of their items in the order of the items, as long as each new item comes right after items
of its container.
-/
namespace TabDeck.Recycler.Attached

variable {W A X C I V P E : Type} [DecidableEq C] [DecidableEq I]

def inside (a : Attached A X C I V) (container : C) (items : List I) : List I :=
  items.filter fun item => a.parents.lookup item = some container

def Mirrors (a : Attached A X C I V) (children : Children C V) : Prop :=
  ∀ c, (children c).map some = (a.inside c a.order).map a.recycler.view?

section Inside

variable {a after : Attached A X C I V} {events : List (Event A X C I V P)} {item : I} {container : Option C} {view : V}
  {c : C} {items : List I}

theorem mem_inside : item ∈ a.inside c items ↔ item ∈ items ∧ a.parents.lookup item = some c := by
  simp [inside]

theorem inside_append (l r : List I) : a.inside c (l ++ r) = a.inside c l ++ a.inside c r := List.filter_append ..

theorem Made.inside_others (hm : a.Made after events item container view) (hi : item ∉ items) :
    after.inside c items = a.inside c items :=
  List.filter_congr fun other ho => by rw [hm.parents_of_ne (ne_of_mem_of_not_mem ho hi)]

omit [DecidableEq C] in
theorem Made.view?_others (hm : a.Made after events item container view) (hi : item ∉ items) :
    items.map after.recycler.view? = items.map a.recycler.view? :=
  List.map_congr_left fun _ ho => hm.view?_of_ne (ne_of_mem_of_not_mem ho hi)

theorem Made.inside_eq (h : a.Coherent) (hm : a.Made after events item container view) (c : C) :
    after.inside c after.order = a.inside c (a.order.take (a.insertionIndex item)) ++
      ((if container = some c then [item] else []) ++ a.inside c (a.order.drop (a.insertionIndex item))) := by
  have hnew : item ∉ a.order := h.notMem_order hm.inactive
  have horder : after.order = a.order.take (a.insertionIndex item) ++
      ([item] ++ a.order.drop (a.insertionIndex item)) := by
    rw [hm.order, insertIdx_eq_take_drop (insertionIndex_le item)]
    rfl
  rw [horder, inside_append, inside_append, hm.inside_others (mt List.mem_of_mem_take hnew),
    hm.inside_others (mt List.mem_of_mem_drop hnew)]
  have hone : after.inside c [item] = if container = some c then [item] else [] := by
    rw [inside, List.filter_cons, hm.parents_self h]
    simp
  rw [hone]

theorem Taken.inside_eq (h : a.Coherent) (ht : a.Taken after events item view) (c : C) :
    after.inside c after.order = (a.inside c a.order).filter (· != item) := by
  rw [inside, ht.order, h.distinct.erase_eq_filter, inside, List.filter_filter, List.filter_filter]
  refine List.filter_congr fun other _ => ?_
  by_cases hi : other = item
  · simp [hi]
  · rw [ht.parents, lookup_filter_of_ne hi, Bool.and_comm]

omit [DecidableEq C] in
theorem view_injective (hv : (a.recycler.active.map Prod.snd).Nodup) {other : I} {v : V}
    (hi : a.recycler.view? item = some v) (ho : a.recycler.view? other = some v) : item = other :=
  congrArg Prod.fst (List.inj_on_of_nodup_map hv (mem_of_lookup hi) (mem_of_lookup ho) rfl)

theorem Mirrors.length_eq {children : Children C V} (hc : a.Mirrors children) (c : C) :
    (children c).length = (a.inside c a.order).length := by
  have hlen := congrArg List.length (hc c)
  rwa [List.length_map, List.length_map] at hlen

end Inside

section Change

variable [DecidableEq V] {a after : Attached A X C I V} {events : List (Event A X C I V P)} {item : I}
  {container : Option C} {view : V} {children : Children C V}

theorem Made.receiveAll_of_ne (hm : a.Made after events item container view) {c : C} (hc : container ≠ some c) :
    children.receiveAll events c = children c := by
  rw [← receiveAll_placements, hm.placements]
  cases container with
  | none => rfl
  | some d => exact update_of_ne (fun h => hc (congrArg some h.symm)) _

theorem Made.receiveAll_self {c : C} (hm : a.Made after events item (some c) view) :
    children.receiveAll events c =
      (children c).insertIdx (min (a.insertionIndex item) (children c).length) view := by
  rw [← receiveAll_placements, hm.placements]
  exact update_self _ _

theorem Made.fits (hm : a.Made after events item container view)
    (hi : ∀ c, container = some c → a.insertionIndex item ≤ (children c).length) : Fits children events := by
  rw [← fits_placements, hm.placements]
  cases container with
  | none => trivial
  | some c => exact ⟨hi c rfl, trivial⟩

theorem Made.shown_self {c : C} (h : a.Coherent) (hm : a.Made after events item (some c) view)
    (hc : a.Mirrors children) (hroom : a.insertionIndex item ≤ (children c).length) :
    ((a.inside c a.order).insertIdx (a.insertionIndex item) item).map after.recycler.view? =
      (children.receiveAll events c).map some := by
  have hold : item ∉ a.inside c a.order := fun hi => h.notMem_order hm.inactive (mem_inside.mp hi).1
  rw [List.map_insertIdx, hm.view?_others hold, hm.view?_self, ← hc c, hm.receiveAll_self, Nat.min_eq_left hroom,
    List.map_insertIdx]

theorem Made.mirrors (h : a.Coherent) (hm : a.Made after events item container view) (hc : a.Mirrors children)
    (hbefore : ∀ c, container = some c → ∀ other ∈ a.order.take (a.insertionIndex item),
      a.parents.lookup other = some c) :
    after.Mirrors (children.receiveAll events) ∧ Fits children events := by
  have hlength (c : C) (hcontainer : container = some c) :
      (a.inside c (a.order.take (a.insertionIndex item))).length = a.insertionIndex item := by
    have hall : a.inside c (a.order.take (a.insertionIndex item)) = a.order.take (a.insertionIndex item) :=
      List.filter_eq_self.mpr fun other ho => by simpa using hbefore c hcontainer other ho
    rw [hall, List.length_take_of_le (insertionIndex_le item)]
  have hsplit (c : C) : a.inside c (a.order.take (a.insertionIndex item)) ++
      a.inside c (a.order.drop (a.insertionIndex item)) = a.inside c a.order := by
    rw [← inside_append, List.take_append_drop]
  have hroom (c : C) (hcontainer : container = some c) : a.insertionIndex item ≤ (children c).length := by
    rw [hc.length_eq, ← hsplit c, List.length_append, hlength c hcontainer]
    exact Nat.le_add_right ..
  refine ⟨fun c => ?_, hm.fits hroom⟩
  rw [hm.inside_eq h]
  by_cases hcontainer : container = some c
  · subst hcontainer
    have hinsert := insertIdx_append_length (a.inside c (a.order.take (a.insertionIndex item)))
      (a.inside c (a.order.drop (a.insertionIndex item))) item
    rw [hlength c rfl, hsplit] at hinsert
    rw [← hm.shown_self h hc (hroom c rfl), hinsert, if_pos rfl]
    rfl
  · have hold : item ∉ a.inside c a.order := fun hi => h.notMem_order hm.inactive (mem_inside.mp hi).1
    rw [hm.receiveAll_of_ne hcontainer, hc c, if_neg hcontainer, List.nil_append, hsplit, hm.view?_others hold]

theorem Taken.mirrors (h : a.Coherent) (hv : (a.recycler.active.map Prod.snd).Nodup)
    (ht : a.Taken after events item view) (hc : a.Mirrors children) :
    after.Mirrors (children.receiveAll events) := by
  intro c
  have hviews : (after.inside c after.order).map after.recycler.view? =
      ((a.inside c a.order).filter (· != item)).map a.recycler.view? := by
    rw [ht.inside_eq h]
    refine List.map_congr_left fun other ho => ht.view?_of_ne ?_
    simpa using (List.mem_filter.mp ho).2
  rw [hviews, ← receiveAll_placements, ht.placements, receive_detachment]
  split
  · -- the view of another item is another view
    have hother : ((a.inside c a.order).filter (· != item)) =
        (a.inside c a.order).filter ((· != some view) ∘ a.recycler.view?) := by
      refine List.filter_congr fun other _ => ?_
      rw [Bool.eq_iff_iff, Function.comp_apply, bne_iff_ne, bne_iff_ne]
      refine not_congr ⟨?_, fun ho => view_injective hv ho ht.viewed⟩
      rintro rfl
      exact ht.viewed
    have hsome : (children c).filter (· != view) = (children c).filter ((· != some view) ∘ some) :=
      List.filter_congr fun v _ => by rw [Bool.eq_iff_iff]; simp
    rw [hother, hsome, ← List.filter_map, ← List.filter_map, hc c]
  · rename_i hp
    have hall : (a.inside c a.order).filter (· != item) = a.inside c a.order := by
      refine List.filter_eq_self.mpr fun other ho => ?_
      rw [bne_iff_ne]
      rintro rfl
      exact hp (mem_inside.mp ho).2
    rw [hall, hc c]

theorem Cleared.mirrors {views : List (I × V)} {cleared : List C} (hr : a.Cleared after events views cleared)
    (hc : a.Mirrors children) : after.Mirrors (children.receiveAll events) := by
  intro c
  rw [hr.order, ← receiveAll_placements, hr.placements, receiveAll_append]
  refine List.map_eq_nil_iff.mpr (List.eq_nil_iff_forall_not_mem.mpr fun v hv => ?_)
  obtain ⟨hchild, hdetached⟩ := mem_receiveAll_detachments (mem_receiveAll_clear hv)
  -- the view belongs to an item of the container, so it has been detached
  have hshown : some v ∈ (a.inside c a.order).map a.recycler.view? := hc c ▸ List.mem_map_of_mem hchild
  obtain ⟨item, hi, hview⟩ := List.mem_map.mp hshown
  exact hdetached item (hr.drained.mem_iff.mpr (mem_of_lookup hview)) (mem_inside.mp hi).2

theorem Kept.mirrors (hk : a.Kept after events) (hc : a.Mirrors children) :
    after.Mirrors (children.receiveAll events) := by
  intro c
  have hinside : after.inside c after.order = a.inside c a.order := by rw [inside, hk.parents, hk.order, inside]
  have hviews : after.recycler.view? = a.recycler.view? := funext hk.view?
  rw [hinside, hviews, ← receiveAll_placements, hk.placements]
  exact hc c

end Change

def Entry.Aligned (e : Entry W A X C I V P E) : Prop :=
  ∀ item c, e.creates item = true → e.resolved = some c →
    ∀ other ∈ e.before.order.take (e.before.insertionIndex item), e.before.parents.lookup other = some c

section Entries

variable {e : Entry W A X C I V P E}

omit [DecidableEq C] in
theorem views_change (hc : e.before.Change e.after e.turn.events e.op) {l : List V}
    (h : (e.before.recycler.active.map Prod.snd).Sublist l) :
    (e.after.recycler.active.map Prod.snd).Sublist (l ++ e.made?.toList) := by
  cases hc with
  | made item container params view hop hm =>
    rw [hm.active, List.map_append, hm.made? hop]
    exact h.append (.refl _)
  | taken item view ht =>
    rw [ht.active]
    exact ((List.filter_sublist.map Prod.snd).trans h).trans (List.sublist_append_left ..)
  | cleared views cleared hr =>
    rw [hr.active]
    exact List.nil_sublist _
  | kept hk =>
    rw [hk.active]
    exact h.trans (List.sublist_append_left ..)

theorem mirrors_change [DecidableEq V] {children : Children C V}
    (hc : e.before.Change e.after e.turn.events e.op) (h : e.before.Coherent)
    (hv : (e.before.recycler.active.map Prod.snd).Nodup) (ha : e.Aligned) (hm : e.before.Mirrors children) :
    e.after.Mirrors (children.receiveAll e.turn.events) ∧ Fits children e.turn.events := by
  cases hc with
  | made item container params view hop hmade =>
    refine hmade.mirrors h hm fun c hcontainer => ?_
    exact ha item c (creates_iff_view?.mpr ⟨hmade.inactive, view, hmade.view?_self⟩)
      ((resolved_inflate hop).trans hcontainer)
  | taken item view ht =>
    refine ⟨ht.mirrors h hv hm, ?_⟩
    rw [← fits_placements, ht.placements]
    exact fits_detachments _
  | cleared views cleared hr =>
    refine ⟨hr.mirrors hm, ?_⟩
    rw [← fits_placements, hr.placements, fits_append]
    exact ⟨fits_detachments views, fits_clear _ cleared⟩
  | kept hk =>
    refine ⟨hk.mirrors hm, ?_⟩
    rw [← fits_placements, hk.placements]
    trivial

end Entries

def Journal.children [DecidableEq V] (j : Journal W A X C I V P E) : Children C V := Children.empty.receiveAll j.events

variable {text : I → String} {w : W} {start : Attached A X C I V} {ms : List (Move W A X C I V P E)}

omit [DecidableEq C] in
theorem journal_views (hempty : start.recycler.active = []) (ms : List (Move W A X C I V P E)) :
    ((journal text start w ms).views.recycler.active.map Prod.snd).Sublist
      ((journal text start w ms).entries.filterMap Entry.made?) := by
  induction ms using List.reverseRecOn with
  | nil =>
    change (start.recycler.active.map Prod.snd).Sublist []
    rw [hempty]
    exact .refl _
  | append_singleton ms m ih =>
    rw [entries_concat, journal_concat]
    rw [List.filterMap_append, filterMap_cons_toList, List.filterMap_nil, List.append_nil]
    exact views_change (entry_change _ m) ih

variable [DecidableEq V]

theorem children_concat (ms : List (Move W A X C I V P E)) (m : Move W A X C I V P E) :
    (journal text start w (ms ++ [m])).children = (journal text start w ms).children.receiveAll
      ((journal text start w ms).entry text m).turn.events := by
  rw [journal_concat, Journal.children, events_next, receiveAll_append]
  rfl

theorem journal_mirrors (hs : start.Coherent) (hempty : start.recycler.active = [])
    (hd : ((journal text start w ms).entries.filterMap Entry.made?).Nodup)
    (ha : ∀ e ∈ (journal text start w ms).entries, e.Aligned) :
    (journal text start w ms).views.Mirrors (journal text start w ms).children ∧
      Fits Children.empty (journal text start w ms).events := by
  induction ms using List.reverseRecOn with
  | nil =>
    refine ⟨fun c => ?_, trivial⟩
    change [] = (start.inside c start.order).map _
    rw [hs.order_eq_nil hempty]
    rfl
  | append_singleton ms m ih =>
    rw [entries_concat] at hd ha
    have hpast : ((journal text start w ms).entries.filterMap Entry.made?).Nodup :=
      hd.sublist ((List.sublist_append_left ..).filterMap _)
    obtain ⟨hmirrors, hfits⟩ := ih hpast fun e he => ha e (List.mem_append_left _ he)
    obtain ⟨hnext, hnew⟩ := mirrors_change (entry_change _ m) (journal_coherent hs ms)
      (hpast.sublist (journal_views hempty ms)) (ha _ List.mem_concat_self) hmirrors
    rw [children_concat]
    rw [journal_concat, events_next]
    exact ⟨hnext, (fits_append ..).mpr ⟨hfits, hnew⟩⟩

omit [DecidableEq C] [DecidableEq V] in
theorem creator?_mem {es : List (Entry W A X C I V P E)} {e : Entry W A X C I V P E} {item : I}
    (h : creator? es item = some e) : e ∈ es ∧ e.creates item = true := by
  rw [creator?] at h
  have hcreates := List.find?_some h
  exact ⟨List.mem_reverse.mp (List.mem_of_find?_eq_some h), hcreates⟩

section Single

variable {c : C}

omit [DecidableEq C] [DecidableEq V] in
theorem parents_single (hs : start.Coherent) (hempty : start.order = [])
    (hc : ∀ e ∈ (journal text start w ms).entries, e.made?.isSome = true → e.resolved = some c) :
    ∀ item ∈ (journal text start w ms).views.order,
      (journal text start w ms).views.parents.lookup item = some c := by
  intro item hi
  obtain ⟨v, hv⟩ := (journal_coherent hs ms).mem_order_iff.mp hi
  obtain ⟨e, -, -, he, -, hp⟩ := journal_creator hs hempty hv
  obtain ⟨hmem, hcreates⟩ := creator?_mem he
  rw [hp, hc e hmem (isSome_made? (change_of_mem hmem) hcreates)]

omit [DecidableEq C] [DecidableEq V] in
theorem aligned_single (hs : start.Coherent) (hempty : start.order = [])
    (hc : ∀ e ∈ (journal text start w ms).entries, e.made?.isSome = true → e.resolved = some c) :
    ∀ e ∈ (journal text start w ms).entries, e.Aligned := by
  intro e he item d hcreates hd other ho
  obtain ⟨past, m, hp, rfl⟩ := entry_of_mem he
  have hpast : past <+: ms := (List.prefix_append past [m]).trans hp
  have hlookup := parents_single hs hempty (fun e he => hc e ((entries_past hpast).subset he)) other
    (List.mem_of_mem_take ho)
  rwa [← hd, hc _ he (isSome_made? (entry_change _ m) hcreates)]

end Single

theorem journal_mirror (context : X) (default : Option C) (compare : Option (Comparator I))
    (ms : List (Move W A X C I V P E)) (c : C)
    (hd : ((journal text (create context default compare) w ms).entries.filterMap Entry.made?).Nodup)
    (hc : ∀ e ∈ (journal text (create context default compare) w ms).entries,
      e.made?.isSome = true → e.resolved = some c) :
    let j := journal text (create context default compare) w ms
    (j.children c).map some = j.views.order.map j.views.recycler.view? ∧ Fits Children.empty j.events := by
  intro j
  have hs : (create context default compare : Attached A X C I V).Coherent := .create context default compare
  obtain ⟨hmirrors, hfits⟩ := journal_mirrors hs rfl hd (aligned_single hs rfl hc)
  have hall : j.views.inside c j.views.order = j.views.order :=
    List.filter_eq_self.mpr fun item hi => by simpa using parents_single hs rfl hc item hi
  have hchildren := hmirrors c
  rw [hall] at hchildren
  exact ⟨hchildren, hfits⟩

section Numbering

def numbering : Hooks Nat Unit Unit Bool Nat Nat Unit Unit where
  inflate n _ _ _ _ _ := (n + 1, .ok n)
  display n _ _ _ item _ _ := (n, if item = 0 then .error () else .ok ())
  dispose n _ _ := n
  save _ _ _ _ := none
  restore n _ _ _ _ := n
  drain := List.reverse
  drain_perm := List.reverse_perm

def numbered (ops : List (Op Unit Bool Nat Unit)) : List (Move Nat Unit Unit Bool Nat Nat Unit Unit) :=
  (.basic (.setAdapter (some ())) :: ops).map (⟨numbering, ·⟩)

theorem journal_mirror_numbered :
    let inflate (item : Nat) (container : Option Bool) : Op Unit Bool Nat Unit :=
      .basic (.inflate item container ())
    let ms := numbered [inflate 5 (some true), .removeAllViews, inflate 3 none, .setComparator (some compare),
      inflate 0 (some true), inflate 2 none, inflate 3 none, .setComparator (some fun a b => compare b a),
      inflate 9 none, .setComparator none, inflate 1 none, .basic (.remove 3)]
    let j := journal toString (create () (some true) none) 0 ms
    (j.entries.filterMap Entry.made?).Nodup ∧
      (∀ e ∈ j.entries, e.made?.isSome = true → e.resolved = some true) ∧
      (j.children true).map some = j.views.order.map j.views.recycler.view? ∧ j.children true = [4, 2, 3, 5] := by
  intro inflate ms j
  have hd : (j.entries.filterMap Entry.made?).Nodup := by decide +kernel
  have hc : ∀ e ∈ j.entries, e.made?.isSome = true → e.resolved = some true := by decide +kernel
  exact ⟨hd, hc, (journal_mirror () (some true) none ms true hd hc).1, by decide +kernel⟩

end Numbering

end TabDeck.Recycler.Attached
