import TabDeck.Proofs.Recycler.Arrangement
import TabDeck.Proofs.Recycler.Entries
import TabDeck.Proofs.Recycler.Lifetime
/-!
Removing all views at once and one after the other.
-/
namespace TabDeck.Recycler

variable {W A X C I V P E : Type} [DecidableEq I]

def viewsOf (r : Recycler A X I V) (items : List I) : List (I × V) :=
  items.filterMap fun item => (r.view? item).map (item, ·)

section Views

variable {r r' : Recycler A X I V} {item : I} {items : List I} {view : V}

theorem viewsOf_cons (h : r.view? item = some view) : viewsOf r (item :: items) = (item, view) :: viewsOf r items := by
  rw [viewsOf, List.filterMap_cons, h]
  rfl

theorem viewsOf_congr (h : ∀ item ∈ items, r.view? item = r'.view? item) : viewsOf r items = viewsOf r' items :=
  List.filterMap_congr fun item hi => by rw [h item hi]

theorem mem_viewsOf {e : I × V} (h : e ∈ viewsOf r items) : e.1 ∈ items := by
  obtain ⟨item, hi, he⟩ := List.mem_filterMap.mp h
  obtain ⟨view, -, rfl⟩ := Option.map_eq_some_iff.mp he
  exact hi

theorem viewsOf_items (hkeys : r.items.Nodup) : viewsOf r r.items = r.active := by
  have hview : ∀ e ∈ r.active, (r.view? e.1).map (e.1, ·) = some e := by
    intro e he
    rw [Recycler.view?, (mem_iff_lookup hkeys).mp he]
    rfl
  rw [viewsOf, Recycler.items, List.filterMap_map]
  exact (List.filterMap_congr hview).trans List.filterMap_some

theorem viewsOf_perm (hkeys : r.items.Nodup) (h : items.Perm r.items) : (viewsOf r items).Perm r.active := by
  rw [← viewsOf_items hkeys]
  exact h.filterMap _

end Views

namespace Attached

def emptied (a : Attached A X C I V) : Attached A X C I V :=
  { a with recycler := { a.recycler with active := [] }, parents := [], order := [] }

def Holds (a : Attached A X C I V) (container : C) (view : V) : Prop :=
  ∃ e ∈ a.recycler.active, e.2 = view ∧ a.parents.lookup e.1 = some container

instance [DecidableEq C] [DecidableEq V] (a : Attached A X C I V) (container : C) (view : V) :
    Decidable (a.Holds container view) :=
  inferInstanceAs (Decidable (∃ e ∈ a.recycler.active, e.2 = view ∧ a.parents.lookup e.1 = some container))

def dismissal (a : Attached A X C I V) (e : I × V) : List (Event A X C I V P) :=
  disposals a.recycler.adapter [e] ++ a.detachments [e]

section Dismissals

variable {a after : Attached A X C I V} {item : I} {view : V} {views : List (I × V)}

omit [DecidableEq I] in
theorem disposals_cons (adapter : Option A) (e : I × V) (views : List (I × V)) :
    (disposals adapter (e :: views) : List (Event A X C I V P)) = disposals adapter [e] ++ disposals adapter views := by
  cases adapter <;> simp [disposals]

theorem dismissals_perm (a : Attached A X C I V) (views : List (I × V)) :
    (views.flatMap a.dismissal : List (Event A X C I V P)).Perm
      (disposals a.recycler.adapter views ++ a.detachments views) := by
  induction views with
  | nil => cases a.recycler.adapter <;> exact .nil
  | cons e views ih =>
    have hdetached : (a.detachments (e :: views) : List (Event A X C I V P)) =
        a.detachments [e] ++ a.detachments views := detachments_append [e] views
    rw [List.flatMap_cons, dismissal, disposals_cons _ e views, hdetached, List.append_assoc, List.append_assoc]
    exact ((ih.append_left _).trans (List.perm_append_comm_assoc ..)).append_left _

theorem placements_dismissals (a : Attached A X C I V) (views : List (I × V)) :
    placements (views.flatMap a.dismissal : List (Event A X C I V P)) = a.detachments views := by
  induction views with
  | nil => rfl
  | cons e views ih =>
    rw [List.flatMap_cons, placements_append, ih, dismissal, placements_append, placements_disposals,
      placements_detachments, List.nil_append, ← detachments_append]
    rfl

theorem about_dismissals [DecidableEq V] (a : Attached A X C I V) (item : I) (view : V) (views : List (I × V)) :
    about item view (views.flatMap a.dismissal : List (Event A X C I V P)) =
      (views.filter fun e => e.2 == view).flatMap a.dismissal := by
  induction views with
  | nil => rfl
  | cons e views ih =>
    rw [List.flatMap_cons, about_append, ih, dismissal, about_append, about_disposals, about_detachments]
    cases hview : e.2 == view with
    | true =>
      simp only [List.filter_cons, List.filter_nil, hview, if_true]
      rfl
    | false =>
      simp only [List.filter_cons, List.filter_nil, hview, Bool.false_eq_true, if_false]
      cases a.recycler.adapter <;> rfl

end Dismissals

section Parents

variable {a : Attached A X C I V}

theorem Coherent.emptied_eq (h : a.Coherent) (hempty : a.recycler.active = []) : a.emptied = a := by
  have hparents : a.parents = [] := by
    apply List.eq_nil_iff_forall_not_mem.mpr
    intro p hp
    have hactive := h.parents_active hp
    rw [Recycler.items, hempty] at hactive
    exact List.not_mem_nil hactive
  rw [emptied, ← hempty, ← hparents, ← h.order_eq_nil hempty]

end Parents

section Removals

variable {text : I → String} {hooks : Hooks W A X C I V P E} {a : Attached A X C I V} {w : W} {item : I} {view : V}
  {items : List I} {ms : List (Move W A X C I V P E)}

theorem emptied_remove (h : a.recycler.view? item = some view) :
    (a.remove text hooks w item).state.emptied = a.emptied := by
  rw [remove, (remove_active h).1]
  simp only [emptied, remove_state h]

theorem removals_run (h : a.Coherent) (hitems : items.Perm a.recycler.items)
    (hops : ms.map Move.op = items.map fun item => .basic (.remove item)) :
    (journal text a w ms).views = a.emptied ∧
      calls (journal text a w ms).events = (viewsOf a.recycler items).flatMap a.dismissal := by
  induction items generalizing a w ms with
  | nil =>
    obtain rfl : ms = [] := List.map_eq_nil_iff.mp hops
    have hempty : a.recycler.active = [] := List.map_eq_nil_iff.mp hitems.nil_eq.symm
    exact ⟨(h.emptied_eq hempty).symm, rfl⟩
  | cons item items ih =>
    obtain ⟨m, rest, rfl, hop, hrest⟩ := List.map_eq_cons_iff.mp hops
    obtain ⟨hooks, op⟩ := m
    obtain rfl : op = .basic (.remove item) := hop
    obtain ⟨view, hv⟩ := mem_items_iff.mp (hitems.mem_iff.mp List.mem_cons_self)
    let t := a.remove text hooks w item
    have ht : a.Taken t.state t.events item view := remove_taken hv
    have hkeys : a.recycler.items.Nodup := h.active.nodup_iff.mp h.distinct
    have hnew : item ∉ items := (List.nodup_cons.mp (hitems.nodup_iff.mpr hkeys)).1
    have hleft : items.Perm t.state.recycler.items := by
      rw [ht.items_eq, ← hkeys.erase_eq_filter]
      exact (List.cons_perm_iff_perm_erase.mp hitems).2
    obtain ⟨hviews, hcalls⟩ := ih (w := t.world) (h.taken ht) hleft hrest
    have hother : ∀ other ∈ items, other ≠ item := fun other ho => ne_of_mem_of_not_mem ho hnew
    have hsame : viewsOf t.state.recycler items = viewsOf a.recycler items :=
      viewsOf_congr fun other ho => ht.view?_of_ne (hother other ho)
    have hdismissed : ∀ e ∈ viewsOf a.recycler items,
        (t.state.dismissal e : List (Event A X C I V P)) = a.dismissal e := by
      intro e he
      have hadapter : t.state.recycler.adapter = a.recycler.adapter :=
        congrArg (·.recycler.adapter) (emptied_remove hv)
      have hparent : t.state.parents.lookup e.1 = a.parents.lookup e.1 := by
        rw [ht.parents]
        exact lookup_filter_of_ne (hother e.1 (mem_viewsOf he)) _
      rw [dismissal, dismissal, hadapter, detachments_single, detachments_single, hparent]
    have hfirst : calls t.events = a.dismissal (item, view) := calls_remove_attached hv
    rw [journal_cons]
    constructor
    · exact hviews.trans (emptied_remove hv)
    · rw [viewsOf_cons hv, List.flatMap_cons, ← List.flatMap_congr hdismissed, ← hsame, ← hcalls, ← hfirst,
        ← calls_append]
      rfl

end Removals

/-- What is left when the views are gone, and the calls that were made: each view is given back once, and every
container has let go of the views that it held for active items and of no other ones. -/
structure Teardown (a after : Attached A X C I V) (events : List (Event A X C I V P)) : Prop where
  state : after = a.emptied
  calls : (calls events).Perm (a.recycler.active.flatMap a.dismissal)
  once [DecidableEq V] (item : I) (view : V) : (a.recycler.active.map Prod.snd).Nodup →
    a.recycler.view? item = some view → about item view events = a.dismissal (item, view)
  children [DecidableEq C] [DecidableEq V] (children : Children C V) (container : C) :
    children.receiveAll events container = (children container).filter fun view => ¬a.Holds container view

section Teardown

variable {text : I → String} {hooks : Hooks W A X C I V P E} {a after : Attached A X C I V} {w : W}
  {events : List (Event A X C I V P)} {items : List I} {ms : List (Move W A X C I V P E)}

theorem receiveAll_dismissed [DecidableEq C] [DecidableEq V] {views : List (I × V)}
    (hviews : views.Perm a.recycler.active) (hplaced : placements events = a.detachments views)
    (children : Children C V) (container : C) : children.receiveAll events container =
      (children container).filter fun view => ¬a.Holds container view := by
  rw [← receiveAll_placements, hplaced, receiveAll_detachments]
  refine List.filter_congr fun view _ => ?_
  rw [decide_eq_decide]
  exact not_congr (exists_congr fun e => and_congr_left' hviews.mem_iff)

theorem removeAll_teardown (h : a.Coherent) :
    a.Teardown (a.removeAll hooks w).state (a.removeAll hooks w : Turn _ _ (Event A X C I V P) _).events := by
  have hviews : (hooks.drain a.recycler.active).Perm a.recycler.active := hooks.drain_perm _
  refine ⟨?_, ?_, ?_, ?_⟩
  · rw [removeAll, emptied, removeAll_state, removeAll_result, h.forgetParents_eq_nil hviews]
  · rw [calls_removeAll_attached]
    exact (dismissals_perm a _).symm.trans (hviews.flatMap_right _)
  · intro _ item view hd hv
    have hmem : (item, view) ∈ hooks.drain a.recycler.active := hviews.mem_iff.mpr (mem_of_lookup hv)
    rw [← about_calls, calls_removeAll_attached, about_append, about_disposals, about_detachments,
      filter_view ((hviews.map _).nodup_iff.mpr hd) hmem]
    rfl
  · intro _ _ children container
    have hcleared : a.Cleared (a.removeAll hooks w).state (a.removeAll hooks w).events _ [] := removeAll_cleared
    exact receiveAll_dismissed hviews (hcleared.placements.trans (List.append_nil _)) children container

theorem removals_teardown (h : a.Coherent) (hitems : items.Perm a.recycler.items)
    (hops : ms.map Move.op = items.map fun item => .basic (.remove item)) :
    a.Teardown (journal text a w ms).views (journal text a w ms).events := by
  obtain ⟨hstate, hcalls⟩ : (journal text a w ms).views = a.emptied ∧ _ := removals_run h hitems hops
  have hviews : (viewsOf a.recycler items).Perm a.recycler.active :=
    viewsOf_perm (h.active.nodup_iff.mp h.distinct) hitems
  refine ⟨hstate, ?_, ?_, ?_⟩
  · rw [hcalls]
    exact hviews.flatMap_right _
  · intro _ item view hd hv
    have hmem : (item, view) ∈ viewsOf a.recycler items := hviews.mem_iff.mpr (mem_of_lookup hv)
    rw [← about_calls, hcalls, about_dismissals, filter_view ((hviews.map _).nodup_iff.mpr hd) hmem]
    exact List.flatMap_singleton ..
  · intro _ _ children container
    refine receiveAll_dismissed hviews ?_ children container
    rw [← placements_calls, hcalls, placements_dismissals]

theorem Teardown.children_eq [DecidableEq C] [DecidableEq V] {after' : Attached A X C I V}
    {events' : List (Event A X C I V P)} (h : a.Teardown after events) (h' : a.Teardown after' events')
    (children : Children C V) : children.receiveAll events = children.receiveAll events' :=
  funext fun container => (h.children children container).trans (h'.children children container).symm

end Teardown

theorem journal_teardown (text : I → String) (context : X) (default : Option C) (compare : Option (Comparator I))
    (w v v' : W) (ms : List (Move W A X C I V P E)) (hooks : Hooks W A X C I V P E)
    {items : List I} (hitems : items.Perm (journal text (create context default compare) w ms).views.order)
    {removals : List (Move W A X C I V P E)}
    (hops : removals.map Move.op = items.map fun item => .basic (.remove item)) :
    let a := (journal text (create context default compare) w ms).views
    let all := a.step text hooks v (.basic .removeAll)
    let each := journal text a v' removals
    a.Teardown all.state all.events ∧ a.Teardown each.views each.events ∧ each.views = all.state ∧
      ∀ [DecidableEq C] [DecidableEq V] (children : Children C V),
        children.receiveAll each.events = children.receiveAll all.events := by
  intro a all each
  have ha : a.Coherent := journal_coherent (.create context default compare) ms
  have hall : a.Teardown all.state all.events := removeAll_teardown ha
  have heach : a.Teardown each.views each.events := removals_teardown ha (hitems.trans ha.active) hops
  refine ⟨hall, heach, heach.state.trans hall.state.symm, ?_⟩
  intro _ _ children
  exact heach.children_eq hall children

theorem journal_teardown_numbered :
    let inflate (item : Nat) (container : Option Bool) : Op Unit Bool Nat Unit :=
      .basic (.inflate item container ())
    let ms := numbered [inflate 7 none, inflate 5 (some false), inflate 0 none, .setDefault none, inflate 3 none,
      inflate 6 (some true)]
    let a := (journal toString (create () (some true) (some compare)) 0 ms).views
    let removals : List (Move Nat Unit Unit Bool Nat Nat Unit Unit) :=
      [3, 7, 0, 6, 5].map fun item => ⟨numbering, .basic (.remove item)⟩
    let all := a.step toString numbering 0 (.basic .removeAll)
    let each := journal toString a 0 removals
    let children : Children Bool Nat := fun c => if c then [8, 2, 4, 0, 9] else [9, 1]
    [3, 7, 0, 6, 5].Perm a.order ∧
      removals.map Move.op = [3, 7, 0, 6, 5].map (fun item => .basic (.remove item)) ∧
      each.views = all.state ∧ children.receiveAll each.events = children.receiveAll all.events ∧
      children.receiveAll each.events true = [8, 9] ∧ children.receiveAll each.events false = [9] := by
  intro inflate ms a removals all each children
  have hitems : [3, 7, 0, 6, 5].Perm a.order := by decide +kernel
  have hops : removals.map Move.op = [3, 7, 0, 6, 5].map fun item => .basic (.remove item) := rfl
  obtain ⟨-, -, hstate, hchildren⟩ :=
    journal_teardown toString () (some true) (some compare) 0 0 0 ms numbering hitems hops
  exact ⟨hitems, hops, hstate, hchildren children, by decide +kernel, by decide +kernel⟩

end Attached

end TabDeck.Recycler
