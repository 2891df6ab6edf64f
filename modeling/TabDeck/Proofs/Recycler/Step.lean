import TabDeck.Recycler.Attached

namespace TabDeck.Recycler

variable {W A X C I V P E : Type}

def Event.isPlacement : Event A X C I V P → Bool
  | .attach _ _ _ => true
  | .detach _ _ => true
  | .clear _ => true
  | .inflate _ _ _ _ => false
  | .display _ _ _ _ _ => false
  | .dispose _ _ => false
  | .save _ _ => false
  | .restore _ _ _ => false
  | .note _ => false
  | .log _ => false

def placements (events : List (Event A X C I V P)) : List (Event A X C I V P) := events.filter Event.isPlacement

theorem placements_append (l r : List (Event A X C I V P)) : placements (l ++ r) = placements l ++ placements r :=
  List.filter_append ..

theorem placements_eq_nil {events : List (Event A X C I V P)} (h : ∀ ev ∈ events, ev.isPlacement = false) :
    placements events = [] :=
  List.filter_eq_nil_iff.mpr fun ev hev => by simp [h ev hev]

theorem placements_eq_self {events : List (Event A X C I V P)} (h : ∀ ev ∈ events, ev.isPlacement = true) :
    placements events = events := List.filter_eq_self.mpr h

section Views

variable {hooks : Hooks W A X C I V P E} {r : Recycler A X I V} {w : W} {item : I} {params : P}

theorem placements_display {i : Inflation V} : placements (r.display hooks w item i params).events = [] := by
  unfold Recycler.display
  cases r.adapter <;> rfl

theorem removeAll_active : (r.removeAll hooks w).state.active = [] := by
  unfold Recycler.removeAll
  cases r.adapter <;> rfl

theorem removeAll_result : (r.removeAll hooks w).result = hooks.drain r.active := by
  unfold Recycler.removeAll
  cases r.adapter <;> rfl

theorem placements_removeAll : placements (r.removeAll hooks w).events = [] := by
  unfold Recycler.removeAll
  cases r.adapter with
  | none => rfl
  | some a =>
    refine placements_eq_nil fun ev hev => ?_
    rcases List.mem_append.mp hev with hev | hev
    · obtain ⟨e, -, rfl⟩ := List.mem_map.mp hev
      rfl
    · obtain rfl := List.mem_singleton.mp hev
      rfl

variable [DecidableEq I]

theorem obtain_active {v : V} (h : r.view? item = some v) (container : Option C) (index : Nat) :
    r.obtain hooks w item container index params = ⟨r, w, [], .ok (some ⟨v, false⟩)⟩ := by
  rw [Recycler.obtain, h]

theorem obtain_no_adapter (h : r.view? item = none) (ha : r.adapter = none) (container : Option C) (index : Nat) :
    r.obtain hooks w item container index params = ⟨r, w, [.note (.noAdapter item)], .ok none⟩ := by
  rw [Recycler.obtain, h, ha]

theorem obtain_error {container : Option C} {index : Nat} {a : A} {w' : W} {e : E} (h : r.view? item = none)
    (ha : r.adapter = some a) (hm : hooks.inflate w a container item index params = (w', .error e)) :
    r.obtain hooks w item container index params = ⟨r, w', [.inflate container item index params], .error e⟩ := by
  rw [Recycler.obtain, h, ha]
  simp only [hm]

theorem obtain_made {container : Option C} {index : Nat} {a : A} {w' : W} {v : V} (h : r.view? item = none)
    (ha : r.adapter = some a) (hm : hooks.inflate w a container item index params = (w', .ok v)) :
    r.obtain hooks w item container index params =
      ⟨{ r with active := r.active ++ [(item, v)] }, w',
        [.inflate container item index params, .note (.inflated item index (r.active.length + 1))],
        .ok (some ⟨v, true⟩)⟩ := by
  rw [Recycler.obtain, h, ha]
  simp only [hm, Recycler.count, List.length_append, List.length_singleton]

theorem remove_inactive (h : r.view? item = none) : r.remove hooks w item = ⟨r, w, [], none⟩ := by
  rw [Recycler.remove, h]

theorem remove_active {v : V} (h : r.view? item = some v) :
    (r.remove hooks w item).result = some v ∧
      (r.remove hooks w item).state.active = (r.active.filter fun e => e.1 != item) ∧
      placements (r.remove hooks w item).events = [] := by
  rw [Recycler.remove, h]
  cases r.adapter <;> exact ⟨rfl, rfl, rfl⟩

end Views

namespace Attached

section Changes

variable (a : Attached A X C I V) (after : Attached A X C I V) (events : List (Event A X C I V P)) (item : I)

structure Kept : Prop where
  active : after.recycler.active = a.recycler.active
  order : after.order = a.order
  parents : after.parents = a.parents
  placements : placements events = []

variable [DecidableEq I]

structure Made (container : Option C) (view : V) : Prop where
  inactive : a.recycler.view? item = none
  active : after.recycler.active = a.recycler.active ++ [(item, view)]
  order : after.order = a.order.insertIdx (a.insertionIndex item) item
  parents : after.parents = container.elim a.parents fun c => (item, c) :: a.parents
  placements : placements events = container.toList.map (.attach · view (a.insertionIndex item))

structure Taken (view : V) : Prop where
  viewed : a.recycler.view? item = some view
  active : after.recycler.active = a.recycler.active.filter fun e => e.1 != item
  order : after.order = a.order.erase item
  parents : after.parents = a.parents.filter fun e => e.1 != item
  placements : placements events = a.detachments [(item, view)]

structure Cleared (views : List (I × V)) (cleared : List C) : Prop where
  drained : views.Perm a.recycler.active
  active : after.recycler.active = []
  order : after.order = []
  parents : after.parents = forgetParents a.parents views
  placements : placements events = a.detachments views ++ cleared.map .clear

inductive Change (op : Op A C I P) : Prop where
  | made (item : I) (container : Option C) (params : P) (view : V)
      (hop : op = .basic (.inflate item container params))
      (h : a.Made after events item (container.or a.defaultContainer) view)
  | taken (item : I) (view : V) (h : a.Taken after events item view)
  | cleared (views : List (I × V)) (cleared : List C) (h : a.Cleared after events views cleared)
  | kept (h : a.Kept after events)

end Changes

variable {text : I → String} {hooks : Hooks W A X C I V P E} {a : Attached A X C I V} {w : W} {item : I}

theorem placements_log {s : Log.Severity} {message : String} :
    placements (a.log s message : List (Event A X C I V P)) = [] :=
  placements_eq_nil (by simp [Attached.log, Event.isPlacement])

variable [DecidableEq I]

theorem mem_detachments {views : List (I × V)} {ev : Event A X C I V P}
    (h : ev ∈ (a.detachments views : List (Event A X C I V P))) :
    ∃ c other v, (other, v) ∈ views ∧ ev = .detach c v := by
  obtain ⟨⟨other, v⟩, he, hev⟩ := List.mem_filterMap.mp h
  obtain ⟨c, -, rfl⟩ := Option.map_eq_some_iff.mp hev
  exact ⟨c, other, v, he, rfl⟩

theorem placements_detachments (views : List (I × V)) :
    placements (a.detachments views : List (Event A X C I V P)) = a.detachments views := by
  apply placements_eq_self
  intro ev hev
  obtain ⟨c, other, v, -, rfl⟩ := mem_detachments hev
  rfl

theorem inflate_made {container : Option C} {params : P} {x : A} {w' : W} {v : V}
    (h : a.recycler.view? item = none) (hx : a.recycler.adapter = some x)
    (hm : hooks.inflate w x (container.or a.defaultContainer) item (a.insertionIndex item) params = (w', .ok v)) :
    let t := a.inflate text hooks w item container params
    a.Made t.state t.events item (container.or a.defaultContainer) v := by
  have hattach (containers : List C) (index : Nat) :
      placements (containers.map fun c => (.attach c v index : Event A X C I V P)) =
        containers.map fun c => .attach c v index := placements_eq_self (by simp [Event.isPlacement])
  simp only [inflate, obtain_made h hx hm, if_true, place]
  refine ⟨h, rfl, rfl, rfl, ?_⟩
  rw [placements_append, placements_append, placements_append, hattach, placements_log, placements_display]
  simp [placements, Event.isPlacement]

theorem inflate_kept {container : Option C} {params : P} (h : (a.recycler.obtain hooks w item
      (container.or a.defaultContainer) (a.insertionIndex item) params).state = a.recycler)
    (hp : placements (a.recycler.obtain hooks w item (container.or a.defaultContainer) (a.insertionIndex item)
      params).events = [])
    (hv : ∀ i, (a.recycler.obtain hooks w item (container.or a.defaultContainer) (a.insertionIndex item)
      params).result = .ok (some i) → i.inflated = false) :
    let t := a.inflate text hooks w item container params
    a.Kept t.state t.events := by
  rw [inflate]
  generalize a.recycler.obtain hooks w item (container.or a.defaultContainer) (a.insertionIndex item) params = t
    at h hp hv
  obtain ⟨r, w', events, result⟩ := t
  obtain rfl : r = a.recycler := h
  match result, hv with
  | .error e, _ => exact ⟨rfl, rfl, rfl, hp⟩
  | .ok none, _ => exact ⟨rfl, rfl, rfl, hp⟩
  | .ok (some i), hv =>
    have hi : i.inflated = false := hv i rfl
    simp only [hi, Bool.false_eq_true, if_false]
    refine ⟨rfl, rfl, rfl, ?_⟩
    rw [placements_append, placements_append, placements_log, placements_display, hp]
    rfl

theorem inflate_change (item : I) (container : Option C) (params : P) :
    let t := a.inflate text hooks w item container params
    a.Change t.state t.events (.basic (.inflate item container params)) := by
  cases hv : a.recycler.view? item with
  | some v => exact .kept (inflate_kept (by rw [obtain_active hv]) (by rw [obtain_active hv]; rfl)
      (by rw [obtain_active hv]; rintro i ⟨⟩; rfl))
  | none =>
    cases hx : a.recycler.adapter with
    | none => exact .kept (inflate_kept (by rw [obtain_no_adapter hv hx]) (by rw [obtain_no_adapter hv hx]; rfl)
        (by rw [obtain_no_adapter hv hx]; nofun))
    | some x =>
      cases hm : hooks.inflate w x (container.or a.defaultContainer) item (a.insertionIndex item) params with
      | mk w' made =>
        cases made with
        | error e => exact .kept (inflate_kept (by rw [obtain_error hv hx hm])
            (by rw [obtain_error hv hx hm]; rfl) (by rw [obtain_error hv hx hm]; nofun))
        | ok v => exact .made item container params v rfl (inflate_made hv hx hm)

theorem remove_taken {v : V} (h : a.recycler.view? item = some v) :
    let t := a.remove text hooks w item
    a.Taken t.state t.events item v := by
  obtain ⟨hr, hactive, hplaced⟩ : (a.recycler.remove hooks w item).result = some v ∧ _ ∧ _ := remove_active h
  rw [remove, hr]
  refine ⟨h, hactive, rfl, rfl, ?_⟩
  rw [placements_append, placements_append, hplaced, placements_detachments, placements_log]
  simp

theorem remove_change (op : Op A C I P) (item : I) :
    let t := a.remove text hooks w item
    a.Change t.state t.events op := by
  cases hv : a.recycler.view? item with
  | none =>
    rw [remove, remove_inactive hv]
    exact .kept ⟨rfl, rfl, rfl, rfl⟩
  | some v => exact .taken item v (remove_taken hv)

theorem removeAll_cleared :
    let t := a.removeAll hooks w
    a.Cleared t.state t.events (hooks.drain a.recycler.active) [] := by
  refine ⟨hooks.drain_perm _, removeAll_active, rfl, by rw [removeAll, removeAll_result], ?_⟩
  rw [removeAll, placements_append, placements_append, placements_removeAll, placements_detachments, placements_log,
    removeAll_result]
  simp

theorem removeAllViews_cleared :
    let t := a.removeAllViews hooks w
    a.Cleared t.state t.events (hooks.drain a.recycler.active) a.defaultContainer.toList := by
  obtain ⟨hviews, hactive, horder, hparents, hplaced⟩ : a.Cleared (a.removeAll hooks w).state
    (a.removeAll hooks w).events (hooks.drain a.recycler.active) [] := removeAll_cleared
  refine ⟨hviews, hactive, horder, hparents, ?_⟩
  have hclear : placements (a.defaultContainer.toList.map fun c => (.clear c : Event A X C I V P)) =
      a.defaultContainer.toList.map fun c => .clear c := placements_eq_self (by simp [Event.isPlacement])
  rw [removeAllViews, placements_append, hplaced, hclear]
  simp

theorem step_change (op : Op A C I P) :
    let t := a.step text hooks w op
    a.Change t.state t.events op := by
  cases op with
  | basic op =>
    cases op with
    | inflate item container params => exact inflate_change item container params
    | remove item => exact remove_change _ item
    | removeAll => exact .cleared _ _ removeAll_cleared
    | setAdapter adapter => exact .kept ⟨rfl, rfl, rfl, rfl⟩
    | save item =>
      have hs : (a.recycler.save hooks w item).state = a.recycler ∧
          placements (a.recycler.save hooks w item).events = [] := by
        unfold Recycler.save
        split <;> exact ⟨rfl, rfl⟩
      exact .kept ⟨congrArg _ hs.1, rfl, rfl, hs.2⟩
    | restore item state =>
      have hs : (a.recycler.restore hooks w item state).state = a.recycler ∧
          placements (a.recycler.restore hooks w item state).events = [] := by
        unfold Recycler.restore
        split <;> exact ⟨rfl, rfl⟩
      exact .kept ⟨congrArg _ hs.1, rfl, rfl, hs.2⟩
  | removeAllViews => exact .cleared _ _ removeAllViews_cleared
  | setDefault container => exact .kept ⟨rfl, rfl, rfl, rfl⟩
  | setComparator compare => exact .kept ⟨rfl, rfl, rfl, rfl⟩
  | setPadding uses => exact .kept ⟨rfl, rfl, rfl, rfl⟩
  | setLevel level => exact .kept ⟨rfl, rfl, rfl, rfl⟩

theorem comparator_inflate (item : I) (container : Option C) (params : P) :
    (a.inflate text hooks w item container params).state.comparator = a.comparator := by
  rw [inflate]
  generalize a.recycler.obtain hooks w item (container.or a.defaultContainer) (a.insertionIndex item) params = t
  obtain ⟨r, w', events, result⟩ := t
  match result with
  | .error e => rfl
  | .ok none => rfl
  | .ok (some ⟨v, true⟩) => rfl
  | .ok (some ⟨v, false⟩) => rfl

theorem comparator_remove (item : I) : (a.remove text hooks w item).state.comparator = a.comparator := by
  rw [remove]
  cases (a.recycler.remove hooks w item).result <;> rfl

theorem comparator_step (op : Op A C I P) : (a.step text hooks w op).state.comparator = a.comparator ∨
    op = .setComparator (a.step text hooks w op).state.comparator := by
  cases op with
  | basic op =>
    cases op with
    | inflate item container params => exact .inl (comparator_inflate item container params)
    | remove item => exact .inl (comparator_remove item)
    | _ => exact .inl rfl
  | setComparator compare => exact .inr rfl
  | _ => exact .inl rfl

end Attached

end TabDeck.Recycler
