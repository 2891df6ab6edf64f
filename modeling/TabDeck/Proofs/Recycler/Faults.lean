import TabDeck.Proofs.Recycler.Mirror
import TabDeck.Proofs.Recycler.Refinement

namespace TabDeck.Recycler.Attached

variable {W A X C I V P E : Type} [DecidableEq I]

section Causes

variable (hooks : Hooks W A X C I V P E) (a : Attached A X C I V) (w : W) (item : I) (container : Option C) (params : P)

def Unmade (e : E) : Prop :=
  a.recycler.view? item = none ∧ ∃ x w', a.recycler.adapter = some x ∧
    hooks.inflate w x (container.or a.defaultContainer) item (a.insertionIndex item) params = (w', .error e)

def Unshown (view : V) (e : E) : Prop :=
  a.recycler.view? item = none ∧ ∃ x w' w'', a.recycler.adapter = some x ∧
    hooks.inflate w x (container.or a.defaultContainer) item (a.insertionIndex item) params = (w', .ok view) ∧
    hooks.display w' x a.recycler.context view item true params = (w'', .error e)

def Unrefreshed (view : V) (e : E) : Prop :=
  a.recycler.view? item = some view ∧ ∃ x w', a.recycler.adapter = some x ∧
    hooks.display w x a.recycler.context view item false params = (w', .error e)

end Causes

section Results

variable {text : I → String} {hooks : Hooks W A X C I V P E} {a : Attached A X C I V} {w : W} {item : I}
  {container : Option C} {params : P} {view : V}

omit [DecidableEq I] in
theorem display_error_iff {r : Recycler A X I V} {i : Inflation V} {e : E} :
    (r.display (C := C) hooks w item i params).result = .error e ↔
      ∃ x w', r.adapter = some x ∧ hooks.display w x r.context i.view item i.inflated params = (w', .error e) := by
  rw [Recycler.display]
  cases r.adapter with
  | none => simp
  | some x =>
    cases hd : hooks.display w x r.context i.view item i.inflated params with
    | mk w' result => cases result <;> simp [hd, Except.map]

omit [DecidableEq I] in
theorem display_ok {r : Recycler A X I V} {i : Inflation V}
    (h : ∀ x, r.adapter = some x → (hooks.display w x r.context i.view item i.inflated params).2 = .ok ()) :
    (r.display (C := C) hooks w item i params).result = .ok (some i) := by
  rw [Recycler.display]
  cases hx : r.adapter with
  | none => rfl
  | some x =>
    change (hooks.display w x r.context i.view item i.inflated params).2.map _ = _
    rw [h x hx]
    rfl

theorem inflate_active (h : a.recycler.view? item = some view) :
    let t := a.inflate text hooks w item container params
    t.state = a ∧ t.result = (a.recycler.display (C := C) hooks w item ⟨view, false⟩ params).result := by
  simp only [inflate, obtain_active h, Bool.false_eq_true, if_false]
  exact ⟨trivial, trivial⟩

theorem inflate_error_iff {e : E} : (a.inflate text hooks w item container params).result = .error e ↔
    Unmade hooks a w item container params e ∨ (∃ view, Unshown hooks a w item container params view e) ∨
      ∃ view, Unrefreshed hooks a w item params view e := by
  cases hv : a.recycler.view? item with
  | some view =>
    rw [(inflate_active hv).2, display_error_iff]
    simp [Unmade, Unshown, Unrefreshed, hv]
  | none =>
    cases hx : a.recycler.adapter with
    | none =>
      simp only [inflate, obtain_no_adapter hv hx]
      simp [Unmade, Unshown, Unrefreshed, hv, hx]
    | some x =>
      cases hm : hooks.inflate w x (container.or a.defaultContainer) item (a.insertionIndex item) params with
      | mk w' made =>
        cases made with
        | error e' =>
          simp only [inflate, obtain_error hv hx hm]
          simp [Unmade, Unshown, Unrefreshed, hv, hx, hm]
        | ok view =>
          simp only [inflate, obtain_made hv hx hm, if_true, display_error_iff]
          simp [Unmade, Unshown, Unrefreshed, hv, hx, hm]

theorem Unmade.kept {e : E} (h : Unmade hooks a w item container params e) :
    let t := a.inflate text hooks w item container params
    t.state = a ∧
      calls t.events = [.inflate (container.or a.defaultContainer) item (a.insertionIndex item) params] := by
  obtain ⟨hv, x, w', hx, hm⟩ := h
  refine ⟨?_, calls_inflate_error hv hx hm⟩
  simp only [inflate, obtain_error hv hx hm]

theorem Unrefreshed.kept {e : E} (h : Unrefreshed hooks a w item params view e) :
    let t := a.inflate text hooks w item container params
    t.state = a ∧ calls t.events = [.display a.recycler.context view item false params] := by
  obtain ⟨hv, x, w', hx, -⟩ := h
  refine ⟨(inflate_active hv).1, ?_⟩
  rw [calls_inflate_active hv, hx]
  rfl

end Results

section Placement

variable (a after : Attached A X C I V) (events : List (Event A X C I V P)) (item : I) (container : Option C) (view : V)

/-- A new view is in use for its item, which is listed at the index that its adapter was told, and it is at that index
in its container. Other items and containers are as before. -/
structure Placed : Prop where
  view? (other : I) : after.recycler.view? other = if other = item then some view else a.recycler.view? other
  order : after.order = a.order.insertIdx (a.insertionIndex item) item
  listed : after.order[a.insertionIndex item]? = some item
  parents (other : I) : after.parents.lookup other = if other = item then container else a.parents.lookup other
  children [DecidableEq C] [DecidableEq V] (children : Children C V) (c : C) : children.receiveAll events c =
    if container = some c then (children c).insertIdx (min (a.insertionIndex item) (children c).length) view
    else children c

variable {a after events item container view}

theorem Made.placed (h : a.Coherent) (hm : a.Made after events item container view) :
    a.Placed after events item container view := by
  refine ⟨fun other => ?_, hm.order, ?_, fun other => ?_, fun children c => ?_⟩
  · split
    · next hi => rw [hi, hm.view?_self]
    · next hi => exact hm.view?_of_ne hi
  · rw [hm.order, List.getElem?_insertIdx_self, if_pos (insertionIndex_le item)]
  · split
    · next hi => rw [hi, hm.parents_self h]
    · next hi => exact hm.parents_of_ne hi
  · split
    · next hc =>
      subst hc
      exact hm.receiveAll_self
    · next hc => exact hm.receiveAll_of_ne hc

end Placement

section Later

variable {text : I → String} {a : Attached A X C I V} {w : W} {item : I} {view : V}

theorem journal_view?_kept (hv : a.recycler.view? item = some view) {ms : List (Move W A X C I V P E)}
    (hdrops : ∀ m ∈ ms, m.op.drops item = false) :
    (journal text a w ms).views.recycler.view? item = some view := by
  induction ms using List.reverseRecOn with
  | nil => exact hv
  | append_singleton ms m ih =>
    rw [journal_concat]
    refine Course.view?_kept (step_course m.op) ?_ (hdrops m List.mem_concat_self)
    exact ih fun m' hm => hdrops m' (List.mem_append_left _ hm)

def Stays (a : Attached A X C I V) (W P E : Type) (text : I → String) (item : I) (view : V) : Prop :=
  ∀ (w v : W) (later : List (Move W A X C I V P E)) (hooks : Hooks W A X C I V P E) (container : Option C) (params : P),
    (∀ m ∈ later, m.op.drops item = false) →
      let b := (journal text a w later).views
      let t := b.inflate text hooks v item container params
      t.state = b ∧
        calls t.events = (b.recycler.adapter.toList.map fun _ =>
          .display b.recycler.context view item false params) ∧
        ((∀ x, b.recycler.adapter = some x →
          (hooks.display v x b.recycler.context view item false params).2 = .ok ()) →
            t.result = .ok (some ⟨view, false⟩))

theorem stays_of_view? (hv : a.recycler.view? item = some view) : a.Stays W P E text item view := by
  intro w v later hooks container params hdrops b t
  have hb : b.recycler.view? item = some view := journal_view?_kept hv hdrops
  obtain ⟨hstate, hresult⟩ : t.state = b ∧ _ := inflate_active hb
  refine ⟨hstate, calls_inflate_active hb, fun hdisplay => ?_⟩
  rw [hresult]
  exact display_ok hdisplay

end Later

omit [DecidableEq I] in
theorem receiveAll_of_calls [DecidableEq C] [DecidableEq V] {events called : List (Event A X C I V P)}
    (hcalls : calls events = called) (hplaced : placements called = []) (children : Children C V) :
    children.receiveAll events = children := by
  rw [← receiveAll_placements, ← placements_calls, hcalls, hplaced]
  rfl

theorem journal_faults (text : I → String) (context : X) (default : Option C) (compare : Option (Comparator I))
    (w v : W) (ms : List (Move W A X C I V P E)) (hooks : Hooks W A X C I V P E) (item : I) (container : Option C)
    (params : P) (e : E) :
    let a := (journal text (create context default compare) w ms).views
    let parent := container.or a.defaultContainer
    let t := a.inflate text hooks v item container params
    (t.result = .error e ↔ Unmade hooks a v item container params e ∨
      (∃ view, Unshown hooks a v item container params view e) ∨ ∃ view, Unrefreshed hooks a v item params view e) ∧
    (Unmade hooks a v item container params e → t.state = a ∧
      calls t.events = [.inflate parent item (a.insertionIndex item) params] ∧
      ∀ [DecidableEq C] [DecidableEq V] (children : Children C V), children.receiveAll t.events = children) ∧
    (∀ view, Unshown hooks a v item container params view e →
      a.Placed t.state t.events item parent view ∧
      calls t.events = .inflate parent item (a.insertionIndex item) params ::
        (parent.toList.map (.attach · view (a.insertionIndex item)) ++
          [.display a.recycler.context view item true params]) ∧
      t.state.Stays W P E text item view) ∧
    ∀ view, Unrefreshed hooks a v item params view e → t.state = a ∧
      calls t.events = [.display a.recycler.context view item false params] ∧
      ∀ [DecidableEq C] [DecidableEq V] (children : Children C V), children.receiveAll t.events = children := by
  intro a parent t
  have ha : a.Coherent := journal_coherent (.create context default compare) ms
  refine ⟨inflate_error_iff, fun hunmade => ?_, fun view hunshown => ?_, fun view hunrefreshed => ?_⟩
  · obtain ⟨hstate, hcalls⟩ : t.state = a ∧ _ := hunmade.kept
    exact ⟨hstate, hcalls, receiveAll_of_calls hcalls rfl⟩
  · obtain ⟨hv, x, w', w'', hx, hm, -⟩ := hunshown
    have hmade : a.Made t.state t.events item parent view := inflate_made hv hx hm
    exact ⟨hmade.placed ha, calls_inflate_made hv hx hm, stays_of_view? hmade.view?_self⟩
  · obtain ⟨hstate, hcalls⟩ : t.state = a ∧ _ := hunrefreshed.kept
    exact ⟨hstate, hcalls, receiveAll_of_calls hcalls rfl⟩

theorem journal_faults_noting :
    let inflate (item : Nat) : Op Unit Bool Nat Unit := .basic (.inflate item none ())
    let ms (items : List Nat) := (.basic (.setAdapter (some ())) :: items.map inflate).map (⟨noting, ·⟩)
    let a (items : List Nat) := (journal toString (create () (some true) (some compare)) (0, []) (ms items)).views
    let parent : Option Bool := none
    let t (items : List Nat) (item : Nat) := (a items).inflate toString noting (4, []) item parent ()
    let obliging := { noting with display := fun w _ _ _ _ _ _ => (w, .ok ()) }
    Unmade noting (a [12, 5]) (4, []) 0 parent () () ∧ (t [12, 5] 0).result = .error () ∧
      (t [12, 5] 0).state = a [12, 5] ∧
      Unshown noting (a [12, 5]) (4, []) 9 parent () 4 () ∧ (t [12, 5] 9).result = .error () ∧
      (t [12, 5] 9).state.order = [5, 9, 12] ∧ (t [12, 5] 9).state.parents.lookup 9 = some true ∧
      (((t [12, 5] 9).state.inflate toString obliging (7, []) 9 parent ()).result = .ok (some ⟨4, false⟩)) ∧
      Unrefreshed noting (a [12, 9, 5]) (4, []) 9 () 1 () ∧ (t [12, 9, 5] 9).result = .error () ∧
      (t [12, 9, 5] 9).state = a [12, 9, 5] := by
  intro inflate ms a parent t obliging
  have hfaults (items : List Nat) (item : Nat) := journal_faults toString () (some true) (some compare) (0, []) (4, [])
    (ms items) noting item parent () ()
  have hunmade : Unmade noting (a [12, 5]) (4, []) 0 parent () () :=
    ⟨by decide +kernel, (), (5, [0]), by decide +kernel, by decide +kernel⟩
  have hunshown : Unshown noting (a [12, 5]) (4, []) 9 parent () 4 () :=
    ⟨by decide +kernel, (), (5, [1]), (5, [1]), by decide +kernel, by decide +kernel, by decide +kernel⟩
  have hunrefreshed : Unrefreshed noting (a [12, 9, 5]) (4, []) 9 () 1 () :=
    ⟨by decide +kernel, (), (4, []), by decide +kernel, by decide +kernel⟩
  obtain ⟨himpossible, hmissing, -, -⟩ := hfaults [12, 5] 0
  obtain ⟨hnew, -, hplaced, -⟩ := hfaults [12, 5] 9
  obtain ⟨hagain, -, -, hsame⟩ := hfaults [12, 9, 5] 9
  obtain ⟨hplaced, -, hstays⟩ := hplaced 4 hunshown
  obtain ⟨-, -, hshown⟩ := hstays (0, []) (7, []) [] obliging parent () nofun
  exact ⟨hunmade, himpossible.mpr (.inl hunmade), (hmissing hunmade).1, hunshown,
    hnew.mpr (.inr (.inl ⟨4, hunshown⟩)), by decide +kernel, hplaced.parents 9, hshown fun _ _ => rfl, hunrefreshed,
    hagain.mpr (.inr (.inr ⟨1, hunrefreshed⟩)), (hsame 1 hunrefreshed).1⟩

end TabDeck.Recycler.Attached
