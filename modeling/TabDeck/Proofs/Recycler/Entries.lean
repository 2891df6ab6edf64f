import TabDeck.Proofs.Recycler.Calls

namespace TabDeck.Recycler

variable {W A X C I V P E : Type}

structure Move (W A X C I V P E : Type) where
  hooks : Hooks W A X C I V P E
  op : Op A C I P

structure Entry (W A X C I V P E : Type) where
  before : Recycler A X I V
  world : W
  hooks : Hooks W A X C I V P E
  op : Op A C I P

inductive Mark (V : Type) where
  | made (view : V)
  | removed (view : V)

/-- Views are made and removed in turn, and the view that is removed is the one that was made last. -/
def Alternates : Option V → List (Mark V) → Prop
  | _, [] => True
  | none, .made view :: marks => Alternates (some view) marks
  | some view, .removed other :: marks => other = view ∧ Alternates none marks
  | none, .removed _ :: _ => False
  | some _, .made _ :: _ => False

def Event.isDisposal : Event A X C I V P → Bool
  | .dispose _ _ => true
  | _ => false

def Event.isTransfer : Event A X C I V P → Bool
  | .inflate _ _ _ _ => true
  | .dispose _ _ => true
  | _ => false

section Turns

variable {hooks : Hooks W A X C I V P E} {r : Recycler A X I V} {w : W} {item : I} {container : Option C}
  {params : P}

theorem filter_isDisposal {events : List (Event A X C I V P)} {adapter : Option A} {views : List (I × V)}
    (h : calls events = disposals adapter views) : events.filter Event.isDisposal = disposals adapter views := by
  have hcalls : (calls events).filter Event.isDisposal = events.filter Event.isDisposal := by
    rw [calls, List.filter_filter]
    apply List.filter_congr
    intro ev _
    cases ev <;> rfl
  have hall : ∀ ev ∈ (disposals adapter views : List (Event A X C I V P)), ev.isDisposal = true := by
    intro ev hev
    obtain ⟨x, other, view, -, rfl⟩ := mem_disposals hev
    rfl
  rw [← hcalls, h]
  exact List.filter_eq_self.mpr hall

theorem display_isTransfer {i : Inflation V} :
    ∀ ev ∈ (r.display hooks w item i params).events, ev.isTransfer = false := by
  unfold Recycler.display
  cases r.adapter <;> simp [Event.isTransfer]

theorem removeAll_isTransfer :
    ∀ ev ∈ (r.removeAll hooks w).events, ev.isTransfer = false ∨ ev.isDisposal = true := by
  unfold Recycler.removeAll
  cases r.adapter with
  | none => simp [Event.isTransfer]
  | some x =>
    intro ev hev
    rcases List.mem_append.mp hev with hev | hev
    · obtain ⟨e, -, rfl⟩ := List.mem_map.mp hev
      exact .inr rfl
    · rw [List.mem_singleton.mp hev]
      exact .inl rfl

theorem removeAll_state : (r.removeAll hooks w).state = { r with active := [] } := by
  unfold Recycler.removeAll
  cases r.adapter <;> rfl

theorem removeAll_world : (r.removeAll hooks w).world =
    r.adapter.elim w fun x => (hooks.drain r.active).foldl (fun w e => hooks.dispose w x e.2) w := by
  unfold Recycler.removeAll
  cases r.adapter <;> rfl

theorem display_state {i : Inflation V} : (r.display hooks w item i params).state = r := by
  unfold Recycler.display
  cases r.adapter <;> rfl

variable [DecidableEq I]

theorem remove_state {view : V} (h : r.view? item = some view) :
    (r.remove hooks w item).state = { r with active := r.active.filter fun e => e.1 != item } := by
  rw [Recycler.remove, h]
  cases r.adapter <;> rfl

theorem remove_world {view : V} (h : r.view? item = some view) :
    (r.remove hooks w item).world = r.adapter.elim w (hooks.dispose w · view) := by
  rw [Recycler.remove, h]
  cases r.adapter <;> rfl

inductive Outcome (hooks : Hooks W A X C I V P E) (r : Recycler A X I V) (w : W) (item : I) (container : Option C)
    (params : P) (t : Turn (Recycler A X I V) W (Event A X C I V P) (Except E (Option (Inflation V)))) : Prop where
  | active (view : V) (h : r.view? item = some view) (ht : t = r.display hooks w item ⟨view, false⟩ params)
  | missing (h : r.view? item = none) (hx : r.adapter = none) (ht : t = ⟨r, w, [.note (.noAdapter item)], .ok none⟩)
  | failed (x : A) (w' : W) (e : E) (h : r.view? item = none) (hx : r.adapter = some x)
      (hm : hooks.inflate w x container item r.count params = (w', .error e))
      (ht : t = ⟨r, w', [.inflate container item r.count params], .error e⟩)
  | made (x : A) (w' : W) (view : V) (r' : Recycler A X I V) (h : r.view? item = none) (hx : r.adapter = some x)
      (hm : hooks.inflate w x container item r.count params = (w', .ok view))
      (hr' : r' = { r with active := r.active ++ [(item, view)] })
      (ht : t = { r'.display hooks w' item ⟨view, true⟩ params with
        events := [.inflate container item r.count params, .note (.inflated item r.count r'.count)] ++
          (r'.display hooks w' item ⟨view, true⟩ params).events })

theorem inflate_outcome (hooks : Hooks W A X C I V P E) (r : Recycler A X I V) (w : W) (item : I)
    (container : Option C) (params : P) :
    Outcome hooks r w item container params (r.inflate hooks w item container params) := by
  cases hv : r.view? item with
  | some view =>
    apply Outcome.active view hv
    simp only [Recycler.inflate, obtain_active hv]
    rfl
  | none =>
    cases hx : r.adapter with
    | none =>
      apply Outcome.missing hv hx
      simp only [Recycler.inflate, obtain_no_adapter hv hx]
    | some x =>
      cases hm : hooks.inflate w x container item r.count params with
      | mk w' made =>
        cases made with
        | error e =>
          apply Outcome.failed x w' e hv hx hm
          simp only [Recycler.inflate, obtain_error hv hx hm]
        | ok view =>
          apply Outcome.made x w' view _ hv hx hm rfl
          simp only [Recycler.inflate, obtain_made hv hx hm]
          simp only [Recycler.count, List.length_append, List.length_singleton]

end Turns

variable [DecidableEq I]

def Event.view? (hooks : Hooks W A X C I V P E) (w : W) (adapter : Option A) (item : I) :
    Event A X C I V P → Option V
  | .inflate container other index params =>
    if other = item then adapter.bind fun x => (hooks.inflate w x container other index params).2.toOption else none
  | _ => none

namespace Entry

def turn (e : Entry W A X C I V P E) : Turn (Recycler A X I V) W (Event A X C I V P) (Answer A V E) :=
  e.before.step e.hooks e.world e.op

def after (e : Entry W A X C I V P E) : Recycler A X I V := e.turn.state

def made? (e : Entry W A X C I V P E) (item : I) : Option V :=
  e.turn.events.findSome? (Event.view? e.hooks e.world e.before.adapter item)

def removed? (e : Entry W A X C I V P E) (item : I) : Option V :=
  match e.op, e.turn.result with
  | .remove other, .view view => if other = item then view else none
  | .removeAll, _ => e.before.view? item
  | _, _ => none

def marks (e : Entry W A X C I V P E) (item : I) : List (Mark V) :=
  (e.made? item).toList.map .made ++ (e.removed? item).toList.map .removed

end Entry

def entries (r : Recycler A X I V) (w : W) : List (Move W A X C I V P E) → List (Entry W A X C I V P E)
  | [] => []
  | m :: ms =>
    let e : Entry W A X C I V P E := ⟨r, w, m.hooks, m.op⟩
    e :: entries e.after e.turn.world ms

def reached (r : Recycler A X I V) (w : W) (ms : List (Move W A X C I V P E)) : Recycler A X I V :=
  (entries r w ms).foldl (fun _ e => e.after) r

section Change

variable {e : Entry W A X C I V P E}

inductive Entry.Change (e : Entry W A X C I V P E) : Prop where
  | kept (hactive : e.after.active = e.before.active) (hmade : ∀ item, e.made? item = none)
      (hremoved : ∀ item, e.removed? item = none) (hevents : e.turn.events.filter Event.isDisposal = [])
  | made (item : I) (view : V) (hitem : e.before.view? item = none)
      (hactive : e.after.active = e.before.active ++ [(item, view)])
      (hmade : ∀ other, e.made? other = if item = other then some view else none)
      (hremoved : ∀ item, e.removed? item = none) (hevents : e.turn.events.filter Event.isDisposal = [])
  | taken (item : I) (view : V) (hitem : e.before.view? item = some view)
      (hactive : e.after.active = e.before.active.filter fun e => e.1 != item)
      (hmade : ∀ item, e.made? item = none)
      (hremoved : ∀ other, e.removed? other = if item = other then some view else none)
      (hevents : e.turn.events.filter Event.isDisposal = disposals e.before.adapter [(item, view)])
  | cleared (views : List (I × V)) (hviews : views.Perm e.before.active) (hactive : e.after.active = [])
      (hmade : ∀ item, e.made? item = none) (hremoved : ∀ item, e.removed? item = e.before.view? item)
      (hevents : e.turn.events.filter Event.isDisposal = disposals e.before.adapter views)

omit [DecidableEq I] in
theorem filter_isDisposal_eq_nil {events : List (Event A X C I V P)} (h : ∀ ev ∈ events, ev.isTransfer = false) :
    events.filter Event.isDisposal = [] := by
  apply List.filter_eq_nil_iff.mpr
  intro ev hev
  have hquiet := h ev hev
  cases ev <;> simp_all [Event.isTransfer, Event.isDisposal]

theorem findSome?_view? {hooks : Hooks W A X C I V P E} {w : W} {adapter : Option A} {item : I}
    {events : List (Event A X C I V P)} (h : ∀ ev ∈ events, ev.isTransfer = false ∨ ev.isDisposal = true) :
    events.findSome? (Event.view? hooks w adapter item) = none := by
  apply List.findSome?_eq_none_iff.mpr
  intro ev hev
  have hquiet := h ev hev
  cases ev <;> simp_all [Event.isTransfer, Event.isDisposal, Event.view?]

theorem change_of_quiet (hactive : e.after.active = e.before.active) (hremoved : ∀ item, e.removed? item = none)
    (hevents : ∀ ev ∈ e.turn.events, ev.isTransfer = false) : e.Change := by
  refine .kept hactive (fun item => ?_) hremoved (filter_isDisposal_eq_nil hevents)
  exact findSome?_view? fun ev hev => .inl (hevents ev hev)

theorem snapshot_change {R : Type} {t : Turn (Recycler A X I V) W (Event A X C I V P) R} {answer : R → Answer A V E}
    (hturn : e.turn = t.map id answer) (hs : t.state = e.before ∧ ∀ ev ∈ t.events, ev.isSnapshot = true)
    (hremoved : ∀ item, e.removed? item = none) : e.Change := by
  apply change_of_quiet _ hremoved
  · intro ev hev
    rw [hturn] at hev
    have hsnapshot := hs.2 ev hev
    cases ev <;> simp_all [Event.isSnapshot, Event.isTransfer]
  · rw [Entry.after, hturn]
    exact congrArg Recycler.active hs.1

theorem inflate_change {item : I} {container : Option C} {params : P} (hop : e.op = .inflate item container params) :
    e.Change := by
  have hturn : e.turn = (e.before.inflate e.hooks e.world item container params).map id .inflation := by
    rw [Entry.turn, hop]
    rfl
  have hremoved (other : I) : e.removed? other = none := by rw [Entry.removed?, hop]
  cases inflate_outcome e.hooks e.before e.world item container params with
  | active view h ht =>
    apply change_of_quiet _ hremoved
    · rw [hturn, ht]
      exact display_isTransfer
    · rw [Entry.after, hturn, ht]
      exact congrArg Recycler.active display_state
  | missing h hx ht =>
    apply change_of_quiet _ hremoved
    · rw [hturn, ht]
      simp [Turn.map, Event.isTransfer]
    · rw [Entry.after, hturn, ht]
      rfl
  | failed x w' err h hx hm ht =>
    apply Entry.Change.kept _ _ hremoved
    · rw [hturn, ht]
      rfl
    · rw [Entry.after, hturn, ht]
      rfl
    · intro other
      rw [Entry.made?, hturn, ht]
      simp [Turn.map, Event.view?, hx, hm, Except.toOption]
  | made x w' view r' h hx hm hr' ht =>
    refine .made item view h ?_ ?_ hremoved ?_
    · rw [Entry.after, hturn, ht]
      exact congrArg Recycler.active (display_state.trans hr')
    · intro other
      have hcall : Event.view? e.hooks e.world e.before.adapter other
          (.inflate container item e.before.count params) = if item = other then some view else none := by
        simp only [Event.view?, hx, Option.bind_some, hm, Except.toOption]
      rw [Entry.made?, hturn, ht, Turn.map, List.findSome?_append,
        findSome?_view? fun ev hev => .inl (display_isTransfer ev hev), Option.or_none, List.findSome?_cons, hcall]
      generalize (if item = other then some view else none) = made
      cases made <;> rfl
    · rw [hturn, ht, Turn.map, List.filter_append, filter_isDisposal_eq_nil display_isTransfer]
      rfl

theorem remove_change {item : I} (hop : e.op = .remove item) : e.Change := by
  have hturn : e.turn = (e.before.remove e.hooks e.world item).map id .view := by
    rw [Entry.turn, hop]
    rfl
  have hremoved (other : I) :
      e.removed? other = if item = other then (e.before.remove e.hooks e.world item).result else none := by
    rw [Entry.removed?, hop, hturn]
    rfl
  cases hv : e.before.view? item with
  | none =>
    rw [remove_inactive hv] at hremoved hturn
    apply change_of_quiet
    · rw [Entry.after, hturn]
      rfl
    · exact fun other => (hremoved other).trans (ite_self _)
    · rw [hturn]
      nofun
  | some view =>
    refine .taken item view hv ?_ ?_ ?_ ?_
    · rw [Entry.after, hturn]
      exact (remove_active hv).2.1
    · intro other
      rw [Entry.made?, hturn, Recycler.remove, hv]
      cases e.before.adapter <;> rfl
    · rwa [(remove_active hv).1] at hremoved
    · rw [hturn]
      exact filter_isDisposal (calls_remove hv)

theorem removeAll_change (hop : e.op = .removeAll) : e.Change := by
  have hturn : e.turn = (e.before.removeAll e.hooks e.world).map id fun _ => .done := by
    rw [Entry.turn, hop]
    rfl
  refine .cleared _ (e.hooks.drain_perm e.before.active) ?_ ?_ ?_ ?_
  · rw [Entry.after, hturn]
    exact removeAll_active
  · intro item
    rw [Entry.made?, hturn]
    exact findSome?_view? removeAll_isTransfer
  · intro item
    rw [Entry.removed?, hop]
  · rw [hturn]
    exact filter_isDisposal calls_removeAll

theorem entry_change (e : Entry W A X C I V P E) : e.Change := by
  cases hop : e.op with
  | setAdapter adapter =>
    apply change_of_quiet <;> simp [Entry.after, Entry.removed?, Entry.turn, hop, step]
  | inflate item container params => exact inflate_change hop
  | remove item => exact remove_change hop
  | removeAll => exact removeAll_change hop
  | save item => exact snapshot_change (by rw [Entry.turn, hop]; rfl) save_snapshot (by simp [Entry.removed?, hop])
  | restore item state =>
    exact snapshot_change (by rw [Entry.turn, hop]; rfl) restore_snapshot (by simp [Entry.removed?, hop])

end Change

section Views

variable {e : Entry W A X C I V P E} {item : I}

theorem Entry.Change.items_nodup (h : e.Change) (hkeys : e.before.items.Nodup) : e.after.items.Nodup := by
  cases h with
  | kept hactive hmade hremoved hevents => rwa [Recycler.items, hactive]
  | made item view hitem hactive hmade hremoved hevents =>
    have hnew : item ∉ e.before.items := by
      rw [Recycler.items, ← isSome_lookup_iff]
      change ¬(e.before.view? item).isSome = true
      rw [hitem]
      exact Bool.false_ne_true
    rw [Recycler.items, hactive, List.map_append]
    refine List.nodup_append.mpr ⟨hkeys, List.pairwise_singleton _ _, ?_⟩
    rintro other ho _ hi rfl
    rw [List.mem_singleton.mp hi] at ho
    exact hnew ho
  | taken item view hitem hactive hmade hremoved hevents =>
    rw [Recycler.items, hactive]
    exact hkeys.sublist (List.filter_sublist.map _)
  | cleared views hviews hactive hmade hremoved hevents =>
    rw [Recycler.items, hactive]
    exact List.nodup_nil

theorem Entry.Change.alternates (h : e.Change) {marks : List (Mark V)}
    (hmarks : Alternates (e.after.view? item) marks) : Alternates (e.before.view? item) (e.marks item ++ marks) := by
  cases h with
  | kept hactive hmade hremoved hevents =>
    rw [Recycler.view?, hactive] at hmarks
    rw [Entry.marks, hmade, hremoved]
    exact hmarks
  | made other view hitem hactive hmade hremoved hevents =>
    rw [Recycler.view?, hactive] at hmarks
    rw [Entry.marks, hmade, hremoved]
    by_cases hi : other = item
    · subst hi
      rw [lookup_concat_self hitem] at hmarks
      rw [hitem, if_pos rfl]
      exact hmarks
    · rw [lookup_concat_of_ne (Ne.symm hi)] at hmarks
      rw [if_neg hi]
      exact hmarks
  | taken other view hitem hactive hmade hremoved hevents =>
    rw [Recycler.view?, hactive] at hmarks
    rw [Entry.marks, hmade, hremoved]
    by_cases hi : other = item
    · subst hi
      rw [lookup_filter_self] at hmarks
      rw [hitem, if_pos rfl]
      exact ⟨rfl, hmarks⟩
    · rw [lookup_filter_of_ne (Ne.symm hi)] at hmarks
      rw [if_neg hi]
      exact hmarks
  | cleared views hviews hactive hmade hremoved hevents =>
    rw [Recycler.view?, hactive, List.lookup_nil] at hmarks
    rw [Entry.marks, hmade, hremoved]
    cases e.before.view? item with
    | none => exact hmarks
    | some view => exact ⟨rfl, hmarks⟩

theorem marks_alternate (r : Recycler A X I V) (w : W) (ms : List (Move W A X C I V P E)) (item : I) :
    Alternates (r.view? item) ((entries r w ms).flatMap (·.marks item)) := by
  induction ms generalizing r w with
  | nil => exact trivial
  | cons m ms ih =>
    rw [entries, List.flatMap_cons]
    exact (entry_change (⟨r, w, m.hooks, m.op⟩ : Entry W A X C I V P E)).alternates (ih _ _)

def Entry.GivesBack (e : Entry W A X C I V P E) : Prop :=
  ∃ views : List (I × V), (views.map (·.1)).Nodup ∧
    (∀ item view, (item, view) ∈ views ↔ e.removed? item = some view) ∧
    e.turn.events.filter Event.isDisposal = disposals e.before.adapter views

theorem Entry.Change.givesBack (h : e.Change) (hkeys : e.before.items.Nodup) : e.GivesBack := by
  have hnone (hremoved : ∀ item, e.removed? item = none)
      (hevents : e.turn.events.filter Event.isDisposal = []) : e.GivesBack := by
    refine ⟨[], List.nodup_nil, fun item view => by simp [hremoved], ?_⟩
    rw [hevents]
    cases e.before.adapter <;> rfl
  cases h with
  | kept hactive hmade hremoved hevents => exact hnone hremoved hevents
  | made item view hitem hactive hmade hremoved hevents => exact hnone hremoved hevents
  | taken item view hitem hactive hmade hremoved hevents =>
    refine ⟨[(item, view)], List.pairwise_singleton _ _, fun other view' => ?_, hevents⟩
    rw [hremoved]
    by_cases hi : item = other <;> simp [hi, eq_comm]
  | cleared views hviews hactive hmade hremoved hevents =>
    refine ⟨views, (hviews.map _).nodup_iff.mpr hkeys, fun item view => ?_, hevents⟩
    rw [hviews.mem_iff, mem_iff_lookup hkeys, hremoved]
    rfl

theorem entries_items_nodup {r : Recycler A X I V} (hkeys : r.items.Nodup) {w : W} {ms : List (Move W A X C I V P E)}
    (he : e ∈ entries r w ms) : e.before.items.Nodup := by
  induction ms generalizing r w with
  | nil => exact absurd he List.not_mem_nil
  | cons m ms ih =>
    rcases List.mem_cons.mp he with rfl | he
    · exact hkeys
    · exact ih ((entry_change _).items_nodup hkeys) he

theorem entries_giveBack {r : Recycler A X I V} (hkeys : r.items.Nodup) {w : W} {ms : List (Move W A X C I V P E)}
    (he : e ∈ entries r w ms) : e.GivesBack := (entry_change e).givesBack (entries_items_nodup hkeys he)

end Views

end TabDeck.Recycler
