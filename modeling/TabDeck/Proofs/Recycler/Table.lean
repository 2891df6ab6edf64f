import Mathlib.Data.Finmap
import TabDeck.Proofs.Recycler.Entries

namespace TabDeck.Recycler

variable {W A X C I V P E : Type} [DecidableEq I]

structure Table (A X I V : Type) where
  context : X
  adapter : Option A
  views : Finmap fun _ : I => V

namespace Table

def count (t : Table A X I V) : Nat := t.views.keys.card

def shown (hooks : Hooks W A X C I V P E) (t : Table A X I V) (w : W) (item : I) (i : Inflation V) (params : P) :
    Turn (Table A X I V) W (Event A X C I V P) (Answer A V E) :=
  match t.adapter with
  | none => ⟨t, w, [], .inflation (.ok (some i))⟩
  | some x =>
    let (w', result) := hooks.display w x t.context i.view item i.inflated params
    ⟨t, w', [.display t.context i.view item i.inflated params], .inflation (result.map fun _ => some i)⟩

/-- What an operation may lead to, with the calls that it makes. The map does not say in which order its views are
given back when all of them are removed. -/
inductive Step (hooks : Hooks W A X C I V P E) (t : Table A X I V) (w : W) :
    Op A C I P → Turn (Table A X I V) W (Event A X C I V P) (Answer A V E) → Prop where
  | setAdapter (adapter : Option A) :
      t.Step hooks w (.setAdapter adapter) ⟨{ t with adapter }, w, [], .adapter t.adapter⟩
  | reused (item : I) (container : Option C) (params : P) (view : V) (h : t.views.lookup item = some view) :
      t.Step hooks w (.inflate item container params) (t.shown hooks w item ⟨view, false⟩ params)
  | missing (item : I) (container : Option C) (params : P) (h : t.views.lookup item = none) (hx : t.adapter = none) :
      t.Step hooks w (.inflate item container params) ⟨t, w, [], .inflation (.ok none)⟩
  | failed (item : I) (container : Option C) (params : P) (x : A) (w' : W) (e : E) (h : t.views.lookup item = none)
      (hx : t.adapter = some x) (hm : hooks.inflate w x container item t.count params = (w', .error e)) :
      t.Step hooks w (.inflate item container params)
        ⟨t, w', [.inflate container item t.count params], .inflation (.error e)⟩
  | made (item : I) (container : Option C) (params : P) (x : A) (w' : W) (view : V) (t' : Table A X I V)
      (h : t.views.lookup item = none) (hx : t.adapter = some x)
      (hm : hooks.inflate w x container item t.count params = (w', .ok view))
      (ht' : t' = { t with views := t.views.insert item view }) :
      t.Step hooks w (.inflate item container params) { t'.shown hooks w' item ⟨view, true⟩ params with
        events := .inflate container item t.count params :: (t'.shown hooks w' item ⟨view, true⟩ params).events }
  | removed (item : I) (view : V) (h : t.views.lookup item = some view) :
      t.Step hooks w (.remove item)
        ⟨{ t with views := t.views.erase item }, t.adapter.elim w (hooks.dispose w · view),
          t.adapter.toList.map (.dispose · view), .view (some view)⟩
  | absent (item : I) (h : t.views.lookup item = none) : t.Step hooks w (.remove item) ⟨t, w, [], .view none⟩
  | cleared (views : List (I × V)) (hkeys : (views.map (·.1)).Nodup)
      (hviews : ∀ item view, (item, view) ∈ views ↔ t.views.lookup item = some view) :
      t.Step hooks w .removeAll
        ⟨{ t with views := ∅ }, t.adapter.elim w fun x => views.foldl (fun w e => hooks.dispose w x e.2) w,
          disposals t.adapter views, .done⟩
  | saved (item : I) (x : A) (view : V) (hx : t.adapter = some x) (h : t.views.lookup item = some view) :
      t.Step hooks w (.save item) ⟨t, w, [.save view item], .state (hooks.save w x view item)⟩
  | unsaved (item : I) (h : t.adapter = none ∨ t.views.lookup item = none) :
      t.Step hooks w (.save item) ⟨t, w, [], .state none⟩
  | restored (item : I) (state : State.Bundle) (x : A) (view : V) (hx : t.adapter = some x)
      (h : t.views.lookup item = some view) :
      t.Step hooks w (.restore item state)
        ⟨t, hooks.restore w x view item state, [.restore view item state], .restored true⟩
  | unrestored (item : I) (state : State.Bundle) (h : t.adapter = none ∨ t.views.lookup item = none) :
      t.Step hooks w (.restore item state) ⟨t, w, [], .restored false⟩

inductive Run : Table A X I V → W → List (Move W A X C I V P E) →
    List (Turn (Table A X I V) W (Event A X C I V P) (Answer A V E)) → Prop where
  | nil (t : Table A X I V) (w : W) : Run t w [] []
  | cons (t : Table A X I V) (w : W) (m : Move W A X C I V P E) (ms : List (Move W A X C I V P E))
      (turn : Turn (Table A X I V) W (Event A X C I V P) (Answer A V E))
      (turns : List (Turn (Table A X I V) W (Event A X C I V P) (Answer A V E)))
      (hstep : t.Step m.hooks w m.op turn) (hrun : Run turn.state turn.world ms turns) :
      Run t w (m :: ms) (turn :: turns)

end Table

section Mapping

variable {active : List (I × V)} {item : I} {view : V}

def mapping (active : List (I × V)) : Finmap fun _ : I => V := (active.map Prod.toSigma).toFinmap

theorem lookup_mapping (active : List (I × V)) (item : I) : (mapping active).lookup item = active.lookup item :=
  (Finmap.dlookup_list_toFinmap item _).trans (dlookup_map_toSigma active item)

theorem mapping_concat (h : active.lookup item = none) :
    mapping (active ++ [(item, view)]) = (mapping active).insert item view := by
  apply Finmap.ext_lookup
  intro other
  rw [lookup_mapping]
  by_cases hi : other = item
  · subst hi
    rw [Finmap.lookup_insert, lookup_concat_self h]
  · rw [Finmap.lookup_insert_of_ne _ hi, lookup_mapping, lookup_concat_of_ne hi]

theorem mapping_filter : mapping (active.filter fun e => e.1 != item) = (mapping active).erase item := by
  apply Finmap.ext_lookup
  intro other
  rw [lookup_mapping]
  by_cases hi : other = item
  · subst hi
    rw [Finmap.lookup_erase, lookup_filter_self]
  · rw [Finmap.lookup_erase_ne hi, lookup_mapping, lookup_filter_of_ne hi]

theorem keys_mapping : (mapping active).keys = (active.map Prod.fst).toFinset := by
  ext item
  rw [Finmap.mem_keys, ← Finmap.lookup_isSome, lookup_mapping, isSome_lookup_iff, List.mem_toFinset]

end Mapping

def table (r : Recycler A X I V) : Table A X I V := ⟨r.context, r.adapter, mapping r.active⟩

def seen (t : Turn (Recycler A X I V) W (Event A X C I V P) (Answer A V E)) :
    Turn (Table A X I V) W (Event A X C I V P) (Answer A V E) := ⟨table t.state, t.world, calls t.events, t.result⟩

section Step

variable {hooks : Hooks W A X C I V P E} {r : Recycler A X I V} {w : W} {item : I}

theorem lookup_table (r : Recycler A X I V) (item : I) : (table r).views.lookup item = r.view? item :=
  lookup_mapping r.active item

theorem count_table (hkeys : r.items.Nodup) : (table r).count = r.count := by
  change (mapping r.active).keys.card = r.active.length
  rw [keys_mapping]
  exact (List.toFinset_card_of_nodup hkeys).trans (List.length_map _)

theorem seen_display {i : Inflation V} {params : P} :
    seen ((r.display hooks w item i params).map id .inflation) = (table r).shown hooks w item i params := by
  obtain ⟨context, adapter, active⟩ := r
  cases adapter <;> rfl

theorem step_inflate (hkeys : r.items.Nodup) (container : Option C) (params : P) :
    (table r).Step hooks w (.inflate item container params)
      (seen ((r.inflate hooks w item container params).map id .inflation)) := by
  -- the index that the adapter is told is the number of keys
  have hcount := count_table hkeys
  cases inflate_outcome hooks r w item container params with
  | active view h ht =>
    rw [ht, seen_display]
    exact .reused item container params view ((lookup_table r item).trans h)
  | missing h hx ht =>
    rw [ht]
    exact .missing item container params ((lookup_table r item).trans h) hx
  | failed x w' e h hx hm ht =>
    rw [ht]
    rw [← hcount] at hm ⊢
    exact .failed item container params x w' e ((lookup_table r item).trans h) hx hm
  | made x w' view r' h hx hm hr' ht =>
    have htable : table r' = { table r with views := (table r).views.insert item view } := by
      rw [hr', table, mapping_concat h]
      rfl
    rw [← hcount] at hm
    have hstep := Table.Step.made item container params x w' view (table r') ((lookup_table r item).trans h) hx hm
      htable
    rw [← seen_display] at hstep
    rw [ht, ← hcount]
    exact hstep

theorem step_remove : (table r).Step hooks w (.remove item) (seen ((r.remove hooks w item).map id .view)) := by
  cases hv : r.view? item with
  | none =>
    rw [remove_inactive hv]
    exact .absent item ((lookup_table r item).trans hv)
  | some view =>
    have htable : table (r.remove hooks w item).state = { table r with views := (table r).views.erase item } := by
      rw [remove_state hv, table, mapping_filter]
      rfl
    have hcalls : calls (r.remove hooks w item).events = (table r).adapter.toList.map (.dispose · view) :=
      (calls_remove hv).trans (disposals_single r.adapter item view)
    simp only [seen, Turn.map, id_eq, htable, hcalls, remove_world hv, (remove_active hv).1]
    exact .removed item view ((lookup_table r item).trans hv)

theorem step_removeAll (hkeys : r.items.Nodup) :
    (table r).Step hooks w .removeAll (seen ((r.removeAll hooks w).map id fun _ => (.done : Answer A V E))) := by
  have hperm := hooks.drain_perm r.active
  have htable : table (r.removeAll hooks w).state = { table r with views := ∅ } := by
    rw [removeAll_state]
    rfl
  simp only [seen, Turn.map, id_eq, htable, calls_removeAll, removeAll_world]
  apply Table.Step.cleared (t := table r) (hooks.drain r.active)
  · exact (hperm.map _).nodup_iff.mpr hkeys
  · intro item view
    rw [hperm.mem_iff, mem_iff_lookup hkeys, lookup_table]
    rfl

theorem step_table (hkeys : r.items.Nodup) (op : Op A C I P) :
    (table r).Step hooks w op (seen (r.step hooks w op)) := by
  have hlookup {item : I} {view? : Option V} (h : r.view? item = view?) : (table r).views.lookup item = view? :=
    (lookup_table r item).trans h
  cases op with
  | setAdapter adapter => exact .setAdapter adapter
  | inflate item container params => exact step_inflate hkeys container params
  | remove item => exact step_remove
  | removeAll => exact step_removeAll hkeys
  | save item =>
    rw [step, Recycler.save]
    cases hx : r.adapter with
    | none => exact .unsaved item (.inl hx)
    | some x =>
      cases hv : r.view? item with
      | none => exact .unsaved item (.inr (hlookup hv))
      | some view => exact .saved item x view hx (hlookup hv)
  | restore item state =>
    rw [step, Recycler.restore]
    cases hx : r.adapter with
    | none => exact .unrestored item state (.inl hx)
    | some x =>
      cases hv : r.view? item with
      | none => exact .unrestored item state (.inr (hlookup hv))
      | some view => exact .restored item state x view hx (hlookup hv)

end Step

section Run

variable {w : W}

theorem entries_run {r : Recycler A X I V} (hkeys : r.items.Nodup) (ms : List (Move W A X C I V P E)) :
    (table r).Run w ms ((entries r w ms).map fun e => seen e.turn) := by
  induction ms generalizing r w with
  | nil => exact .nil (table r) w
  | cons m ms ih =>
    have hafter := (entry_change (⟨r, w, m.hooks, m.op⟩ : Entry W A X C I V P E)).items_nodup hkeys
    exact .cons _ _ _ _ _ _ (step_table hkeys m.op) (ih hafter)

theorem entries_table (context : X) (adapter : Option A) (w : W) (ms : List (Move W A X C I V P E)) :
    let es := entries (create context adapter) w ms
    Table.Run ⟨context, adapter, ∅⟩ w ms (es.map fun e => seen e.turn) ∧
      (∀ e ∈ es, e.after.count = (table e.after).count ∧
        ∀ item, e.after.view? item = (table e.after).views.lookup item) ∧
      (∀ item, Alternates none (es.flatMap (·.marks item))) ∧
      (∀ e ∈ es, e.GivesBack) := by
  intro es
  have hkeys : (create context adapter : Recycler A X I V).items.Nodup := List.nodup_nil
  refine ⟨?_, ?_, ?_, ?_⟩
  · exact entries_run hkeys ms
  · intro e he
    have hafter : e.after.items.Nodup := (entry_change e).items_nodup (entries_items_nodup hkeys he)
    exact ⟨(count_table hafter).symm, fun item => (lookup_table e.after item).symm⟩
  · exact fun item => marks_alternate (create context adapter) w ms item
  · exact fun e he => entries_giveBack hkeys he

end Run

end TabDeck.Recycler
