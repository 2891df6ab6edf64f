import TabDeck.Proofs.Recycler.Step
import TabDeck.Recycler.Container

namespace TabDeck.Recycler

variable {A X C I V P : Type} [DecidableEq C] [DecidableEq V]

def Event.Fits (children : Children C V) : Event A X C I V P → Prop
  | .attach container _ index => index ≤ (children container).length
  | _ => True

def Fits (children : Children C V) : List (Event A X C I V P) → Prop
  | [] => True
  | ev :: events => ev.Fits children ∧ Fits (children.receive ev) events

section Receive

variable {children : Children C V} {ev : Event A X C I V P}

theorem receive_of_not_placement (h : ev.isPlacement = false) : children.receive ev = children := by
  cases ev with
  | attach container view index => cases h
  | detach container view => cases h
  | clear container => cases h
  | _ => rfl

omit [DecidableEq C] [DecidableEq V] in
theorem fits_of_not_placement (h : ev.isPlacement = false) : ev.Fits children := by
  cases ev with
  | attach container view index => cases h
  | _ => trivial

theorem receiveAll_append (children : Children C V) (l r : List (Event A X C I V P)) :
    children.receiveAll (l ++ r) = (children.receiveAll l).receiveAll r := List.foldl_append

theorem receiveAll_placements (children : Children C V) (events : List (Event A X C I V P)) :
    children.receiveAll (placements events) = children.receiveAll events := by
  induction events generalizing children with
  | nil => rfl
  | cons ev events ih =>
    cases hp : ev.isPlacement with
    | true =>
      rw [placements, List.filter_cons_of_pos hp]
      exact ih (children.receive ev)
    | false =>
      rw [placements, List.filter_cons_of_neg (by simp [hp])]
      change _ = (children.receive ev).receiveAll events
      rw [receive_of_not_placement hp]
      exact ih children

theorem fits_placements (children : Children C V) (events : List (Event A X C I V P)) :
    Fits children (placements events) ↔ Fits children events := by
  induction events generalizing children with
  | nil => rfl
  | cons ev events ih =>
    cases hp : ev.isPlacement with
    | true =>
      rw [placements, List.filter_cons_of_pos hp]
      exact and_congr_right fun _ => ih (children.receive ev)
    | false =>
      rw [placements, List.filter_cons_of_neg (by simp [hp]), Fits, receive_of_not_placement hp]
      exact (ih children).trans (and_iff_right (fits_of_not_placement hp)).symm

theorem fits_append (children : Children C V) (l r : List (Event A X C I V P)) :
    Fits children (l ++ r) ↔ Fits children l ∧ Fits (children.receiveAll l) r := by
  induction l generalizing children with
  | nil => exact (and_iff_right trivial).symm
  | cons ev l ih =>
    rw [List.cons_append, Fits, Fits, ih, and_assoc]
    rfl

theorem fits_of_no_attach {events : List (Event A X C I V P)}
    (h : ∀ container view index, .attach container view index ∉ events) (children : Children C V) :
    Fits children events := by
  induction events generalizing children with
  | nil => trivial
  | cons ev events ih =>
    refine ⟨?_, ih (fun c v i hm => h c v i (List.mem_cons_of_mem _ hm)) _⟩
    cases ev with
    | attach container view index => exact absurd List.mem_cons_self (h container view index)
    | _ => trivial

theorem fits_clear (children : Children C V) (cleared : List C) :
    Fits children (cleared.map fun c => (.clear c : Event A X C I V P)) := by
  refine fits_of_no_attach (fun container view index hmem => ?_) children
  obtain ⟨c, -, hc⟩ := List.mem_map.mp hmem
  cases hc

omit [DecidableEq V] in
theorem update_self (container : C) (f : List V → List V) :
    children.update container f container = f (children container) := if_pos rfl

omit [DecidableEq V] in
theorem update_of_ne {container other : C} (h : other ≠ container) (f : List V → List V) :
    children.update container f other = children other := if_neg h

theorem mem_receiveAll_clear {cleared : List C} {container : C} {v : V}
    (h : v ∈ children.receiveAll (cleared.map fun c => (.clear c : Event A X C I V P)) container) :
    v ∈ children container := by
  induction cleared generalizing children with
  | nil => exact h
  | cons c cleared ih =>
    have hv : v ∈ children.update c (fun _ => []) container := ih h
    by_cases hc : container = c
    · rw [hc, update_self] at hv
      exact absurd hv List.not_mem_nil
    · rwa [update_of_ne hc] at hv

end Receive

namespace Attached

variable [DecidableEq I] {a : Attached A X C I V} {children : Children C V}

omit [DecidableEq C] [DecidableEq V] in
theorem detachments_append (l r : List (I × V)) :
    (a.detachments (l ++ r) : List (Event A X C I V P)) = a.detachments l ++ a.detachments r := List.filterMap_append

omit [DecidableEq C] [DecidableEq V] in
theorem detachments_cons (item : I) (view : V) (views : List (I × V)) :
    (a.detachments ((item, view) :: views) : List (Event A X C I V P)) =
      ((a.parents.lookup item).map (.detach · view)).toList ++ a.detachments views := by
  simp only [detachments, List.filterMap_cons]
  cases a.parents.lookup item <;> rfl

theorem fits_detachments (views : List (I × V)) :
    Fits children (a.detachments views : List (Event A X C I V P)) := by
  refine fits_of_no_attach (fun container view index hmem => ?_) children
  obtain ⟨e, -, he⟩ := List.mem_filterMap.mp hmem
  obtain ⟨c, -, hc⟩ := Option.map_eq_some_iff.mp he
  cases hc

theorem receive_detachment {item : I} {view : V} {container : C} :
    (children.receiveAll (a.detachments [(item, view)] : List (Event A X C I V P))) container =
      if a.parents.lookup item = some container then (children container).filter (· != view)
      else children container := by
  rw [detachments_cons]
  cases hp : a.parents.lookup item with
  | none => rfl
  | some c =>
    change children.update c (fun vs => vs.filter (· != view)) container = _
    by_cases hc : container = c
    · rw [hc, update_self, if_pos rfl]
    · rw [update_of_ne hc, if_neg fun h => hc (Option.some.inj h).symm]

theorem receiveAll_detachments (children : Children C V) (views : List (I × V)) (container : C) :
    children.receiveAll (a.detachments views : List (Event A X C I V P)) container =
      (children container).filter fun v => ¬∃ e ∈ views, e.2 = v ∧ a.parents.lookup e.1 = some container := by
  induction views generalizing children with
  | nil =>
    change children container = _
    exact (List.filter_eq_self.mpr (by simp)).symm
  | cons e views ih =>
    have hcons (v : V) : (∃ f ∈ e :: views, f.2 = v ∧ a.parents.lookup f.1 = some container) ↔
        (e.2 = v ∧ a.parents.lookup e.1 = some container) ∨
          ∃ f ∈ views, f.2 = v ∧ a.parents.lookup f.1 = some container := by
      simp only [List.mem_cons, exists_eq_or_imp]
    rw [← List.singleton_append, detachments_append, receiveAll_append, ih, receive_detachment,
      List.singleton_append]
    simp only [hcons, not_or]
    split
    · next hp =>
      rw [List.filter_filter]
      refine List.filter_congr fun v _ => ?_
      by_cases hv : e.2 = v
      · simp [hv, hp]
      · simp [hv, Ne.symm hv]
    · next hp => simp [hp]

theorem mem_receiveAll_detachments {views : List (I × V)} {container : C} {v : V}
    (h : v ∈ children.receiveAll (a.detachments views : List (Event A X C I V P)) container) :
    v ∈ children container ∧ ∀ item, (item, v) ∈ views → a.parents.lookup item ≠ some container := by
  rw [receiveAll_detachments] at h
  obtain ⟨hv, hstays⟩ := List.mem_filter.mp h
  exact ⟨hv, fun item hmem hp => of_decide_eq_true hstays ⟨_, hmem, rfl, hp⟩⟩

end Attached

end TabDeck.Recycler
