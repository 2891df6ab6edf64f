import TabDeck.Proofs.Recycler.Journal

namespace TabDeck.Recycler

variable {W A X C I V P E : Type}

def Event.isCall : Event A X C I V P → Bool
  | .inflate _ _ _ _ => true
  | .display _ _ _ _ _ => true
  | .dispose _ _ => true
  | .save _ _ => true
  | .restore _ _ _ => true
  | .attach _ _ _ => true
  | .detach _ _ => true
  | .clear _ => true
  | .note _ => false
  | .log _ => false

def calls (events : List (Event A X C I V P)) : List (Event A X C I V P) := events.filter Event.isCall

def Event.isSnapshot : Event A X C I V P → Bool
  | .save _ _ => true
  | .restore _ _ _ => true
  | _ => false

def disposals (adapter : Option A) (views : List (I × V)) : List (Event A X C I V P) :=
  adapter.toList.flatMap fun x => views.map fun e => .dispose x e.2

theorem calls_append (l r : List (Event A X C I V P)) : calls (l ++ r) = calls l ++ calls r := List.filter_append ..

theorem calls_eq_self {events : List (Event A X C I V P)} (h : ∀ ev ∈ events, ev.isCall = true) :
    calls events = events := List.filter_eq_self.mpr h

theorem mem_disposals {adapter : Option A} {views : List (I × V)} {ev : Event A X C I V P}
    (h : ev ∈ (disposals adapter views : List (Event A X C I V P))) :
    ∃ x other v, (other, v) ∈ views ∧ ev = .dispose x v := by
  obtain ⟨x, -, h⟩ := List.mem_flatMap.mp h
  obtain ⟨⟨other, v⟩, he, rfl⟩ := List.mem_map.mp h
  exact ⟨x, other, v, he, rfl⟩

theorem placements_disposals (adapter : Option A) (views : List (I × V)) :
    placements (disposals adapter views : List (Event A X C I V P)) = [] := by
  apply placements_eq_nil
  intro ev hev
  obtain ⟨x, other, v, -, rfl⟩ := mem_disposals hev
  rfl

theorem placements_calls (events : List (Event A X C I V P)) : placements (calls events) = placements events := by
  rw [placements, calls, List.filter_filter]
  apply List.filter_congr
  intro ev _
  cases ev <;> rfl

theorem disposals_single (adapter : Option A) (item : I) (view : V) :
    (disposals adapter [(item, view)] : List (Event A X C I V P)) = adapter.toList.map (.dispose · view) := by
  cases adapter <;> rfl

section Views

variable {hooks : Hooks W A X C I V P E} {r : Recycler A X I V} {w : W} {item : I} {params : P}

theorem calls_display {i : Inflation V} : calls (r.display hooks w item i params).events =
    r.adapter.toList.map fun _ => .display r.context i.view item i.inflated params := by
  unfold Recycler.display
  cases r.adapter <;> rfl

theorem calls_removeAll : calls (r.removeAll hooks w).events = disposals r.adapter (hooks.drain r.active) := by
  unfold Recycler.removeAll
  cases r.adapter with
  | none => rfl
  | some x =>
    have hdisposed : calls ((hooks.drain r.active).map fun e => (.dispose x e.2 : Event A X C I V P)) =
        (hooks.drain r.active).map fun e => .dispose x e.2 := by
      apply calls_eq_self
      intro ev hev
      obtain ⟨e, -, rfl⟩ := List.mem_map.mp hev
      rfl
    rw [calls_append, hdisposed, disposals, Option.toList_some, List.flatMap_singleton]
    exact List.append_nil _

variable [DecidableEq I]

theorem save_snapshot : (r.save hooks w item).state = r ∧
    ∀ ev ∈ (r.save hooks w item).events, ev.isSnapshot = true := by
  unfold Recycler.save
  split <;> simp [Event.isSnapshot]

theorem restore_snapshot {state : State.Bundle} : (r.restore hooks w item state).state = r ∧
    ∀ ev ∈ (r.restore hooks w item state).events, ev.isSnapshot = true := by
  unfold Recycler.restore
  split <;> simp [Event.isSnapshot]

theorem calls_remove {view : V} (h : r.view? item = some view) :
    calls (r.remove hooks w item).events = disposals r.adapter [(item, view)] := by
  rw [Recycler.remove, h]
  cases r.adapter <;> rfl

end Views

namespace Attached

section Courses

variable [DecidableEq I] (a : Attached A X C I V) (after : Attached A X C I V) (events : List (Event A X C I V P))

def Op.drops (op : Op A C I P) (item : I) : Bool :=
  match op with
  | .basic (.remove other) => other == item
  | .basic .removeAll => true
  | .removeAllViews => true
  | _ => false

inductive Course (op : Op A C I P) : Prop where
  | made (item : I) (container : Option C) (params : P) (view : V)
      (hop : op = .basic (.inflate item container params))
      (h : a.Made after events item (container.or a.defaultContainer) view)
      (hcalls : calls events = .inflate (container.or a.defaultContainer) item (a.insertionIndex item) params ::
        ((container.or a.defaultContainer).toList.map (.attach · view (a.insertionIndex item)) ++
          [.display a.recycler.context view item true params]))
  | failed (item : I) (container : Option C) (params : P) (hop : op = .basic (.inflate item container params))
      (hitem : a.recycler.view? item = none) (h : a.Kept after events)
      (hcalls : calls events =
        [.inflate (container.or a.defaultContainer) item (a.insertionIndex item) params])
  | shown (item : I) (container : Option C) (params : P) (view : V)
      (hop : op = .basic (.inflate item container params)) (hview : a.recycler.view? item = some view)
      (h : a.Kept after events)
      (hcalls : calls events =
        a.recycler.adapter.toList.map fun _ => .display a.recycler.context view item false params)
  | taken (item : I) (view : V) (hop : op = .basic (.remove item)) (h : a.Taken after events item view)
      (hcalls : calls events = disposals a.recycler.adapter [(item, view)] ++ a.detachments [(item, view)])
  | cleared (views : List (I × V)) (cleared : List C) (hop : ∀ item, op.drops item = true)
      (h : a.Cleared after events views cleared)
      (hcalls : calls events =
        disposals a.recycler.adapter views ++ (a.detachments views ++ cleared.map .clear))
  | quiet (hop : ∀ item, op.drops item = true → a.recycler.view? item = none) (h : a.Kept after events)
      (hcalls : ∀ ev ∈ calls events, ev.isSnapshot = true)

end Courses

variable {text : I → String} {hooks : Hooks W A X C I V P E} {a : Attached A X C I V} {w : W} {item : I}

theorem calls_log {s : Log.Severity} {message : String} :
    calls (a.log s message : List (Event A X C I V P)) = [] :=
  List.filter_eq_nil_iff.mpr (by simp [Attached.log, Event.isCall])

variable [DecidableEq I]

theorem Course.change {after : Attached A X C I V} {events : List (Event A X C I V P)} {op : Op A C I P}
    (h : a.Course after events op) : a.Change after events op := by
  cases h with
  | made item container params view hop h hcalls => exact .made item container params view hop h
  | failed item container params hop hitem h hcalls => exact .kept h
  | shown item container params view hop hview h hcalls => exact .kept h
  | taken item view hop h hcalls => exact .taken item view h
  | cleared views cleared hop h hcalls => exact .cleared views cleared h
  | quiet hop h hcalls => exact .kept h

theorem Course.view?_kept {after : Attached A X C I V} {events : List (Event A X C I V P)} {op : Op A C I P} {view : V}
    (h : a.Course after events op) (hv : a.recycler.view? item = some view) (hdrop : op.drops item = false) :
    after.recycler.view? item = some view := by
  cases h with
  | made other container params v hop h hcalls =>
    have hne : item ≠ other := by
      rintro rfl
      rw [h.inactive] at hv
      cases hv
    exact (h.view?_of_ne hne).trans hv
  | taken other v hop h hcalls =>
    have hne : item ≠ other := by
      rintro rfl
      rw [hop] at hdrop
      simp [Op.drops] at hdrop
    exact (h.view?_of_ne hne).trans hv
  | cleared views cleared hop h hcalls =>
    rw [hop item] at hdrop
    cases hdrop
  | failed other container params hop hitem h hcalls => exact (h.view? item).trans hv
  | shown other container params v hop hother h hcalls => exact (h.view? item).trans hv
  | quiet hop h hcalls => exact (h.view? item).trans hv

theorem calls_detachments (views : List (I × V)) :
    calls (a.detachments views : List (Event A X C I V P)) = a.detachments views := by
  apply calls_eq_self
  intro ev hev
  obtain ⟨c, other, v, -, rfl⟩ := mem_detachments hev
  rfl

theorem calls_inflate_made {container : Option C} {params : P} {x : A} {w' : W} {view : V}
    (h : a.recycler.view? item = none) (hx : a.recycler.adapter = some x)
    (hm : hooks.inflate w x (container.or a.defaultContainer) item (a.insertionIndex item) params = (w', .ok view)) :
    calls (a.inflate text hooks w item container params).events =
      .inflate (container.or a.defaultContainer) item (a.insertionIndex item) params ::
        ((container.or a.defaultContainer).toList.map (.attach · view (a.insertionIndex item)) ++
          [.display a.recycler.context view item true params]) := by
  have hattach : calls ((container.or a.defaultContainer).toList.map fun c =>
      (.attach c view (a.insertionIndex item) : Event A X C I V P)) =
      (container.or a.defaultContainer).toList.map fun c => .attach c view (a.insertionIndex item) :=
    calls_eq_self (by simp [Event.isCall])
  have hmade (index count : Nat) : calls [.inflate (container.or a.defaultContainer) item index params,
      (.note (.inflated item index count) : Event A X C I V P)] =
        [.inflate (container.or a.defaultContainer) item index params] := rfl
  simp only [inflate, obtain_made h hx hm, if_true, place]
  rw [calls_append, calls_append, calls_append, hmade, hattach, calls_log, calls_display, hx, List.append_nil,
    List.append_assoc]
  rfl

theorem calls_inflate_error {container : Option C} {params : P} {x : A} {w' : W} {e : E}
    (h : a.recycler.view? item = none) (hx : a.recycler.adapter = some x)
    (hm : hooks.inflate w x (container.or a.defaultContainer) item (a.insertionIndex item) params = (w', .error e)) :
    calls (a.inflate text hooks w item container params).events =
      [.inflate (container.or a.defaultContainer) item (a.insertionIndex item) params] := by
  simp only [inflate, obtain_error h hx hm]
  rfl

theorem calls_inflate_active {container : Option C} {params : P} {view : V} (h : a.recycler.view? item = some view) :
    calls (a.inflate text hooks w item container params).events =
      a.recycler.adapter.toList.map fun _ => .display a.recycler.context view item false params := by
  simp only [inflate, obtain_active h, Bool.false_eq_true, if_false]
  rw [calls_append, calls_append, calls_log, calls_display]
  rfl

theorem calls_inflate_no_adapter {container : Option C} {params : P} (h : a.recycler.view? item = none)
    (hx : a.recycler.adapter = none) : calls (a.inflate text hooks w item container params).events = [] := by
  simp only [inflate, obtain_no_adapter h hx]
  rfl

theorem Kept.course {after : Attached A X C I V} {events : List (Event A X C I V P)} {op : Op A C I P}
    (h : a.Kept after events) (hop : ∀ item, op.drops item = false)
    (hcalls : ∀ ev ∈ calls events, ev.isSnapshot = true) : a.Course after events op := by
  refine .quiet (fun item hdrop => ?_) h hcalls
  rw [hop item] at hdrop
  exact absurd hdrop Bool.false_ne_true

theorem inflate_course (item : I) (container : Option C) (params : P) :
    let t := a.inflate text hooks w item container params
    a.Course t.state t.events (.basic (.inflate item container params)) := by
  cases hv : a.recycler.view? item with
  | some view =>
    refine .shown item container params view rfl hv ?_ (calls_inflate_active hv)
    exact inflate_kept (by rw [obtain_active hv]) (by rw [obtain_active hv]; rfl)
      (by rw [obtain_active hv]; rintro i ⟨⟩; rfl)
  | none =>
    cases hx : a.recycler.adapter with
    | none =>
      refine Kept.course ?_ (fun _ => rfl) (by simp [calls_inflate_no_adapter hv hx])
      exact inflate_kept (by rw [obtain_no_adapter hv hx]) (by rw [obtain_no_adapter hv hx]; rfl)
        (by rw [obtain_no_adapter hv hx]; nofun)
    | some x =>
      cases hm : hooks.inflate w x (container.or a.defaultContainer) item (a.insertionIndex item) params with
      | mk w' made =>
        cases made with
        | error e =>
          refine .failed item container params rfl hv ?_ (calls_inflate_error hv hx hm)
          exact inflate_kept (by rw [obtain_error hv hx hm]) (by rw [obtain_error hv hx hm]; rfl)
            (by rw [obtain_error hv hx hm]; nofun)
        | ok view => exact .made item container params view rfl (inflate_made hv hx hm) (calls_inflate_made hv hx hm)

theorem calls_remove_attached {view : V} (h : a.recycler.view? item = some view) :
    calls (a.remove text hooks w item).events =
      disposals a.recycler.adapter [(item, view)] ++ a.detachments [(item, view)] := by
  rw [remove, (remove_active h).1, calls_append, calls_append, calls_remove h, calls_detachments, calls_log]
  exact List.append_nil _

theorem remove_course (item : I) :
    let t := a.remove text hooks w item
    a.Course t.state t.events (.basic (.remove item)) := by
  cases hv : a.recycler.view? item with
  | none =>
    rw [remove, remove_inactive hv]
    refine .quiet (fun other hdrop => ?_) ⟨rfl, rfl, rfl, rfl⟩ (List.forall_mem_nil _)
    obtain rfl : item = other := beq_iff_eq.mp hdrop
    exact hv
  | some view => exact .taken item view rfl (remove_taken hv) (calls_remove_attached hv)

theorem calls_removeAll_attached : calls (a.removeAll hooks w).events =
    disposals a.recycler.adapter (hooks.drain a.recycler.active) ++ a.detachments (hooks.drain a.recycler.active) := by
  rw [removeAll, calls_append, calls_append, calls_removeAll, calls_detachments, calls_log, removeAll_result]
  simp

theorem snapshot_course {r : Recycler A X I V} {after : Attached A X C I V} {events : List (Event A X C I V P)}
    {op : Op A C I P} (hs : r = a.recycler ∧ ∀ ev ∈ events, ev.isSnapshot = true) (hrecycler : after.recycler = r)
    (horder : after.order = a.order) (hparents : after.parents = a.parents) (hop : ∀ item, op.drops item = false) :
    a.Course after events op := by
  have hplaced : placements events = [] := by
    apply placements_eq_nil
    intro ev hev
    have hsnapshot := hs.2 ev hev
    cases ev <;> simp_all [Event.isSnapshot, Event.isPlacement]
  refine Kept.course ⟨by rw [hrecycler, hs.1], horder, hparents, hplaced⟩ hop fun ev hev => ?_
  exact hs.2 ev (List.mem_filter.mp hev).1

theorem step_course (op : Op A C I P) :
    let t := a.step text hooks w op
    a.Course t.state t.events op := by
  cases op with
  | basic op =>
    cases op with
    | inflate item container params => exact inflate_course item container params
    | remove item => exact remove_course item
    | removeAll =>
      refine .cleared _ _ (fun _ => rfl) removeAll_cleared ?_
      exact calls_removeAll_attached.trans (by rw [List.map_nil, List.append_nil])
    | setAdapter adapter => exact Kept.course ⟨rfl, rfl, rfl, rfl⟩ (fun _ => rfl) (List.forall_mem_nil _)
    | save item => exact snapshot_course save_snapshot rfl rfl rfl fun _ => rfl
    | restore item state => exact snapshot_course restore_snapshot rfl rfl rfl fun _ => rfl
  | removeAllViews =>
    refine .cleared _ _ (fun _ => rfl) removeAllViews_cleared ?_
    have hclear : calls (a.defaultContainer.toList.map fun c => (.clear c : Event A X C I V P)) =
        a.defaultContainer.toList.map fun c => .clear c := calls_eq_self (by simp [Event.isCall])
    change calls (a.removeAllViews hooks w).events = _
    rw [removeAllViews, calls_append, calls_removeAll_attached, hclear, List.append_assoc]
  | setDefault container => exact Kept.course ⟨rfl, rfl, rfl, rfl⟩ (fun _ => rfl) (List.forall_mem_nil _)
  | setComparator compare => exact Kept.course ⟨rfl, rfl, rfl, rfl⟩ (fun _ => rfl) (List.forall_mem_nil _)
  | setPadding uses => exact Kept.course ⟨rfl, rfl, rfl, rfl⟩ (fun _ => rfl) (List.forall_mem_nil _)
  | setLevel level => exact Kept.course ⟨rfl, rfl, rfl, rfl⟩ (fun _ => rfl) (List.forall_mem_nil _)

end Attached

end TabDeck.Recycler
