import TabDeck.Proofs.Recycler.Entries
/-!
A recycler with containers is one without containers as far as its views go.
-/
namespace TabDeck.Recycler

variable {W A X C I V P E : Type}

inductive Request (A X I V P : Type) where
  | inflate (item : I) (params : P)
  | display (context : X) (view : V) (item : I) (inflated : Bool) (params : P)
  | dispose (adapter : A) (view : V)
  | save (view : V) (item : I)
  | restore (view : V) (item : I) (state : State.Bundle)

def Event.request? : Event A X C I V P → Option (Request A X I V P)
  | .inflate _ item _ params => some (.inflate item params)
  | .display context view item inflated params => some (.display context view item inflated params)
  | .dispose adapter view => some (.dispose adapter view)
  | .save view item => some (.save view item)
  | .restore view item state => some (.restore view item state)
  | .attach _ _ _ => none
  | .detach _ _ => none
  | .clear _ => none
  | .note _ => none
  | .log _ => none

def requests (events : List (Event A X C I V P)) : List (Request A X I V P) := events.filterMap Event.request?

/-- Adapters answer alike in worlds that are alike, whatever container and index they are told and in whatever order
they are told of views that are gone. -/
structure Hooks.Blind (hooks : Hooks W A X C I V P E) (alike : W → W → Prop) : Prop where
  inflate {w w' : W} (h : alike w w') (x : A) (container container' : Option C) (item : I) (index index' : Nat)
      (params : P) :
      let made := hooks.inflate w x container item index params
      let made' := hooks.inflate w' x container' item index' params
      alike made.1 made'.1 ∧ made.2 = made'.2
  display {w w' : W} (h : alike w w') (x : A) (context : X) (view : V) (item : I) (inflated : Bool) (params : P) :
      let shown := hooks.display w x context view item inflated params
      let shown' := hooks.display w' x context view item inflated params
      alike shown.1 shown'.1 ∧ shown.2 = shown'.2
  dispose {w w' : W} (h : alike w w') (x : A) {views views' : List V} (hviews : views.Perm views') :
      alike (views.foldl (hooks.dispose · x ·) w) (views'.foldl (hooks.dispose · x ·) w')

def Hooks.visiting (hooks : Hooks W A X C I V P E) (drain : List (I × V) → List (I × V))
    (hdrain : ∀ l, (drain l).Perm l) : Hooks W A X C I V P E := { hooks with drain, drain_perm := hdrain }

def Op.isSnapshot : Op A C I P → Bool
  | .save _ => true
  | .restore _ _ => true
  | _ => false

namespace Attached

def Op.plain? : Op A C I P → Option (Recycler.Op A C I P)
  | .basic op => some op
  | .removeAllViews => some .removeAll
  | .setDefault _ => none
  | .setComparator _ => none
  | .setPadding _ => none
  | .setLevel _ => none

inductive Over : List (Move W A X C I V P E) → List (Recycler.Move W A X C I V P E) → Prop where
  | nil : Over [] []
  | shared (hooks : Hooks W A X C I V P E) (drain : List (I × V) → List (I × V)) (hdrain : ∀ l, (drain l).Perm l)
      (op : Op A C I P) (op' : Recycler.Op A C I P) (hop : op.plain? = some op')
      {ms : List (Move W A X C I V P E)} {ms' : List (Recycler.Move W A X C I V P E)} (h : Over ms ms') :
      Over (⟨hooks, op⟩ :: ms) (⟨hooks.visiting drain hdrain, op'⟩ :: ms')
  | alone (hooks : Hooks W A X C I V P E) (op : Op A C I P) (hop : op.plain? = none)
      {ms : List (Move W A X C I V P E)} {ms' : List (Recycler.Move W A X C I V P E)} (h : Over ms ms') :
      Over (⟨hooks, op⟩ :: ms) ms'

structure Matches (op : Recycler.Op A C I P) (t : Turn (Attached A X C I V) W (Event A X C I V P) (Answer A V E))
    (t' : Turn (Recycler A X I V) W (Event A X C I V P) (Answer A V E)) : Prop where
  state : t.state.recycler = t'.state
  result : t.result = t'.result
  requests : (requests t.events).Perm (requests t'.events)
  ordered : op ≠ .removeAll → Recycler.requests t.events = Recycler.requests t'.events

end Attached

section Steps

variable {hooks : Hooks W A X C I V P E} {alike : W → W → Prop} {w w' : W}

theorem requests_append (l l' : List (Event A X C I V P)) : requests (l ++ l') = requests l ++ requests l' :=
  List.filterMap_append

theorem requests_eq_nil {events : List (Event A X C I V P)} (h : ∀ ev ∈ events, ev.request? = none) :
    requests events = [] := List.filterMap_eq_nil_iff.mpr h

theorem requests_removeAll {r : Recycler A X I V} : requests (r.removeAll hooks w).events =
    r.adapter.elim [] fun x => (hooks.drain r.active).map fun e => .dispose x e.2 := by
  unfold Recycler.removeAll
  cases r.adapter with
  | none => rfl
  | some x =>
    have hdisposed : requests ((hooks.drain r.active).map fun e => (.dispose x e.2 : Event A X C I V P)) =
        (hooks.drain r.active).map fun e => .dispose x e.2 := by
      generalize hooks.drain r.active = views
      induction views with
      | nil => rfl
      | cons e views ih => exact congrArg (.dispose x e.2 :: ·) ih
    rw [requests_append, hdisposed]
    exact List.append_nil _

theorem display_blind (hb : hooks.Blind alike) (hw : alike w w') (r : Recycler A X I V) (item : I) (i : Inflation V)
    (params : P) :
    let t := r.display hooks w item i params
    let t' := r.display hooks w' item i params
    alike t.world t'.world ∧ t.events = t'.events ∧ t.result = t'.result := by
  unfold Recycler.display
  cases r.adapter with
  | none => exact ⟨hw, rfl, rfl⟩
  | some x =>
    obtain ⟨hworld, hresult⟩ := hb.display hw x r.context i.view item i.inflated params
    exact ⟨hworld, rfl, congrArg (Except.map fun _ => some i) hresult⟩

theorem removeAll_blind (hb : hooks.Blind alike) (hw : alike w w') (r : Recycler A X I V)
    (drain : List (I × V) → List (I × V)) (hdrain : ∀ l, (drain l).Perm l) :
    let t := r.removeAll hooks w
    let t' := r.removeAll (hooks.visiting drain hdrain) w'
    t.state = t'.state ∧ alike t.world t'.world ∧ (requests t.events).Perm (requests t'.events) := by
  have hperm : (hooks.drain r.active).Perm (drain r.active) := (hooks.drain_perm _).trans (hdrain _).symm
  refine ⟨removeAll_state.trans removeAll_state.symm, ?_, ?_⟩
  · rw [removeAll_world, removeAll_world]
    cases r.adapter with
    | none => exact hw
    | some x =>
      have hdisposed := hb.dispose hw x (hperm.map Prod.snd)
      rwa [List.foldl_map, List.foldl_map] at hdisposed
  · rw [requests_removeAll, requests_removeAll]
    cases r.adapter with
    | none => exact .nil
    | some x => exact hperm.map _

variable [DecidableEq I]

theorem obtain_blind (hb : hooks.Blind alike) (hw : alike w w') (r : Recycler A X I V) (item : I)
    (container container' : Option C) (index index' : Nat) (params : P) :
    let t := r.obtain hooks w item container index params
    let t' := r.obtain hooks w' item container' index' params
    t.state = t'.state ∧ alike t.world t'.world ∧ requests t.events = requests t'.events ∧ t.result = t'.result := by
  cases hv : r.view? item with
  | some view =>
    rw [obtain_active hv, obtain_active hv]
    exact ⟨rfl, hw, rfl, rfl⟩
  | none =>
    cases hx : r.adapter with
    | none =>
      rw [obtain_no_adapter hv hx, obtain_no_adapter hv hx]
      exact ⟨rfl, hw, rfl, rfl⟩
    | some x =>
      obtain ⟨hworld, hresult⟩ := hb.inflate hw x container container' item index index' params
      cases hm : hooks.inflate w x container item index params with
      | mk made result =>
        cases hm' : hooks.inflate w' x container' item index' params with
        | mk made' result' =>
          rw [hm, hm'] at hworld hresult
          obtain rfl : result = result' := hresult
          cases result with
          | error e =>
            rw [obtain_error hv hx hm, obtain_error hv hx hm']
            exact ⟨rfl, hworld, rfl, rfl⟩
          | ok view =>
            rw [obtain_made hv hx hm, obtain_made hv hx hm']
            exact ⟨rfl, hworld, rfl, rfl⟩

theorem remove_blind (hb : hooks.Blind alike) (hw : alike w w') (r : Recycler A X I V) (item : I) :
    let t := r.remove hooks w item
    let t' := r.remove hooks w' item
    t.state = t'.state ∧ alike t.world t'.world ∧ t.events = t'.events ∧ t.result = t'.result := by
  rw [Recycler.remove, Recycler.remove]
  cases r.view? item with
  | none => exact ⟨rfl, hw, rfl, rfl⟩
  | some view =>
    cases r.adapter with
    | none => exact ⟨rfl, hw, rfl, rfl⟩
    | some x => exact ⟨rfl, hb.dispose hw x (.refl [view]), rfl, rfl⟩

end Steps

namespace Attached

section Matches

variable {op : Recycler.Op A C I P} {t : Turn (Attached A X C I V) W (Event A X C I V P) (Answer A V E)}
  {t' : Turn (Recycler A X I V) W (Event A X C I V P) (Answer A V E)}

theorem Matches.of_eq (hstate : t.state.recycler = t'.state) (hresult : t.result = t'.result)
    (hrequests : Recycler.requests t.events = Recycler.requests t'.events) : Matches op t t' :=
  ⟨hstate, hresult, .of_eq hrequests, fun _ => hrequests⟩

theorem Matches.append (h : Matches op t t') {quiet : List (Event A X C I V P)}
    (hquiet : Recycler.requests quiet = []) : Matches op { t with events := t.events ++ quiet } t' := by
  have hrequests : Recycler.requests (t.events ++ quiet) = Recycler.requests t.events := by
    rw [requests_append, hquiet, List.append_nil]
  refine ⟨h.state, h.result, ?_, fun hop => ?_⟩
  · exact (List.Perm.of_eq hrequests).trans h.requests
  · exact hrequests.trans (h.ordered hop)

end Matches

section Steps

variable {hooks : Hooks W A X C I V P E} {alike : W → W → Prop} {w w' : W} {text : I → String}
  {a : Attached A X C I V}

theorem requests_log {s : Log.Severity} {message : String} :
    Recycler.requests (a.log s message : List (Event A X C I V P)) = [] :=
  requests_eq_nil (by simp [Attached.log, Event.request?])

theorem requests_place {item : I} {view : V} {container : Option C} {index : Nat} :
    Recycler.requests ((a.place text item view container index).2 : List (Event A X C I V P)) = [] := by
  rw [place, requests_append, requests_log, List.append_nil]
  exact requests_eq_nil (by simp [Event.request?])

variable [DecidableEq I]

theorem requests_detachments (views : List (I × V)) :
    Recycler.requests (a.detachments views : List (Event A X C I V P)) = [] := by
  apply requests_eq_nil
  intro ev hev
  obtain ⟨c, other, v, -, rfl⟩ := mem_detachments hev
  rfl

theorem inflate_matches (hb : hooks.Blind alike) (hw : alike w w') (item : I) (container : Option C) (params : P) :
    let t := (a.inflate text hooks w item container params).map id .inflation
    let t' := (a.recycler.inflate hooks w' item container params).map id .inflation
    Matches (.inflate item container params) t t' ∧ alike t.world t'.world := by
  obtain ⟨hstate, hworld, hevents, hresult⟩ := obtain_blind hb hw a.recycler item (container.or a.defaultContainer)
    container (a.insertionIndex item) a.recycler.count params
  simp only [Attached.inflate, Recycler.inflate]
  generalize a.recycler.obtain hooks w item (container.or a.defaultContainer) (a.insertionIndex item) params = t
    at hstate hworld hevents hresult
  generalize a.recycler.obtain hooks w' item container a.recycler.count params = t'
    at hstate hworld hevents hresult
  obtain ⟨r, v, events, result⟩ := t
  obtain ⟨r', v', events', result'⟩ := t'
  obtain rfl : r = r' := hstate
  obtain rfl : result = result' := hresult
  -- a view that is made or found is shown in both runs, and what is done in between asks adapters for nothing
  cases result with
  | error e => exact ⟨.of_eq rfl rfl hevents, hworld⟩
  | ok shown =>
    cases shown with
    | none => exact ⟨.of_eq rfl rfl hevents, hworld⟩
    | some i =>
      obtain ⟨hworld, hshown, hresult⟩ := display_blind hb hworld r item i params
      have hrequests {quiet : List (Event A X C I V P)} (hquiet : Recycler.requests quiet = []) :
          Recycler.requests (events ++ quiet ++ (r.display hooks v item i params).events) =
            Recycler.requests (events' ++ (r.display hooks v' item i params).events) := by
        rw [requests_append, requests_append, requests_append, hquiet, List.append_nil, hevents, hshown]
      obtain ⟨view, inflated⟩ := i
      cases inflated with
      | true => exact ⟨.of_eq display_state.symm (congrArg _ hresult) (hrequests requests_place), hworld⟩
      | false => exact ⟨.of_eq display_state.symm (congrArg _ hresult) (hrequests requests_log), hworld⟩

theorem remove_matches (hb : hooks.Blind alike) (hw : alike w w') (item : I) :
    let t := (a.remove text hooks w item).map id .view
    let t' : Turn _ _ _ (Answer A V E) := (a.recycler.remove hooks w' item).map id .view
    Matches (.remove item : Recycler.Op A C I P) t t' ∧ alike t.world t'.world := by
  obtain ⟨hstate, hworld, hevents, hresult⟩ := remove_blind hb hw a.recycler item
  rw [Attached.remove]
  cases hv : (a.recycler.remove hooks w item).result with
  | none => exact ⟨.of_eq hstate (congrArg _ (hv.symm.trans hresult)) (congrArg _ hevents), hworld⟩
  | some view =>
    refine ⟨.of_eq hstate (congrArg _ (hv.symm.trans hresult)) ?_, hworld⟩
    change Recycler.requests (_ ++ _ ++ _) = _
    rw [requests_append, requests_append, requests_detachments, requests_log, List.append_nil, List.append_nil]
    exact congrArg _ hevents

theorem removeAll_matches (hb : hooks.Blind alike) (hw : alike w w') (drain : List (I × V) → List (I × V))
    (hdrain : ∀ l, (drain l).Perm l) :
    let t := (a.removeAll hooks w).map id fun _ => .done
    let t' : Turn _ _ _ (Answer A V E) :=
      (a.recycler.removeAll (hooks.visiting drain hdrain) w').map id fun _ => .done
    Matches (.removeAll : Recycler.Op A C I P) t t' ∧ alike t.world t'.world := by
  obtain ⟨hstate, hworld, hevents⟩ := removeAll_blind hb hw a.recycler drain hdrain
  refine ⟨⟨hstate, rfl, ?_, fun h => absurd rfl h⟩, hworld⟩
  change (Recycler.requests (_ ++ _ ++ _)).Perm _
  rw [requests_append, requests_append, requests_detachments, requests_log, List.append_nil, List.append_nil]
  exact hevents

theorem step_matches (text : I → String) (a : Attached A X C I V) (hb : hooks.Blind alike) (hw : alike w w')
    (drain : List (I × V) → List (I × V)) (hdrain : ∀ l, (drain l).Perm l) {op : Op A C I P}
    {op' : Recycler.Op A C I P} (hop : op.plain? = some op') (hs : op'.isSnapshot = false) :
    let t := a.step text hooks w op
    let t' := a.recycler.step (hooks.visiting drain hdrain) w' op'
    Matches op' t t' ∧ alike t.world t'.world := by
  cases op with
  | basic op =>
    obtain rfl : op = op' := Option.some.inj hop
    cases op with
    | setAdapter adapter => exact ⟨.of_eq rfl rfl rfl, hw⟩
    | inflate item container params => exact inflate_matches hb hw item container params
    | remove item => exact remove_matches hb hw item
    | removeAll => exact removeAll_matches hb hw drain hdrain
    | save item => cases hs
    | restore item state => cases hs
  | removeAllViews =>
    obtain rfl : .removeAll = op' := Option.some.inj hop
    obtain ⟨hmatches, hworld⟩ : Matches (.removeAll : Recycler.Op A C I P)
      ((a.removeAll hooks w).map id fun _ => .done) _ ∧ _ := removeAll_matches hb hw drain hdrain
    exact ⟨hmatches.append (requests_eq_nil (by simp [Event.request?])), hworld⟩
  | setDefault container => cases hop
  | setComparator compare => cases hop
  | setPadding uses => cases hop
  | setLevel level => cases hop

theorem step_alone (text : I → String) (hooks : Hooks W A X C I V P E) (a : Attached A X C I V) (w : W)
    {op : Op A C I P} (hop : op.plain? = none) :
    let t := a.step text hooks w op
    t.state.recycler = a.recycler ∧ t.world = w ∧ t.events = [] := by
  cases op with
  | basic op => cases hop
  | removeAllViews => cases hop
  | setDefault container => exact ⟨rfl, rfl, rfl⟩
  | setComparator compare => exact ⟨rfl, rfl, rfl⟩
  | setPadding uses => exact ⟨rfl, rfl, rfl⟩
  | setLevel level => exact ⟨rfl, rfl, rfl⟩

end Steps

section Runs

def plain (drain : List (I × V) → List (I × V)) (hdrain : ∀ l, (drain l).Perm l) (ms : List (Move W A X C I V P E)) :
    List (Recycler.Move W A X C I V P E) :=
  ms.filterMap fun m => m.op.plain?.map (⟨m.hooks.visiting drain hdrain, ·⟩)

theorem over_plain (drain : List (I × V) → List (I × V)) (hdrain : ∀ l, (drain l).Perm l)
    (ms : List (Move W A X C I V P E)) : Over ms (plain drain hdrain ms) := by
  induction ms with
  | nil => exact .nil
  | cons m ms ih =>
    rw [plain, List.filterMap_cons]
    cases hop : m.op.plain? with
    | none => exact .alone m.hooks m.op hop ih
    | some op => exact .shared m.hooks drain hdrain m.op op hop ih

variable [DecidableEq I] {text : I → String} {alike : W → W → Prop} {w w' : W} {a : Attached A X C I V}
  {ms : List (Move W A X C I V P E)} {ms' : List (Recycler.Move W A X C I V P E)}

structure Corresponds (e : Entry W A X C I V P E) (e' : Recycler.Entry W A X C I V P E) : Prop where
  op : e.op.plain? = some e'.op
  before : e.before.recycler = e'.before
  turn : Matches e'.op e.turn e'.turn

def Journal.shared (j : Journal W A X C I V P E) : List (Entry W A X C I V P E) :=
  j.entries.filter (·.op.plain?.isSome)

theorem Over.corresponds (text : I → String) (a : Attached A X C I V) (h : Over ms ms')
    (hblind : ∀ m ∈ ms, m.hooks.Blind alike) (hops : ∀ m ∈ ms', m.op.isSnapshot = false) (hw : alike w w') :
    List.Forall₂ Corresponds (journal text a w ms).shared (entries a.recycler w' ms') ∧
      (journal text a w ms).views.recycler = reached a.recycler w' ms' := by
  induction h generalizing a w w' with
  | nil => exact ⟨.nil, rfl⟩
  | @shared hooks drain hdrain op op' hop ms ms' h ih =>
    obtain ⟨hstep, hworld⟩ := step_matches text a (hblind _ List.mem_cons_self) hw drain hdrain hop
      (hops _ List.mem_cons_self)
    obtain ⟨hrest, hlast⟩ := ih _ (fun m hm => hblind m (List.mem_cons_of_mem _ hm))
      (fun m hm => hops m (List.mem_cons_of_mem _ hm)) hworld
    rw [hstep.state] at hrest hlast
    have hshared : (journal text a w (⟨hooks, op⟩ :: ms)).shared =
        Journal.entry text ⟨a, w, []⟩ ⟨hooks, op⟩ ::
          (journal text (a.step text hooks w op).state (a.step text hooks w op).world ms).shared := by
      rw [Journal.shared, journal_cons]
      exact List.filter_cons_of_pos (congrArg Option.isSome hop)
    rw [hshared, journal_cons]
    exact ⟨.cons ⟨hop, rfl, hstep⟩ hrest, hlast⟩
  | @alone hooks op hop ms ms' h ih =>
    -- the second run waits while a setting changes
    obtain ⟨hstate, hworld, -⟩ := step_alone text hooks a w hop
    rw [← hworld] at hw
    have hrest := ih (a.step text hooks w op).state (fun m hm => hblind m (List.mem_cons_of_mem _ hm)) hops hw
    rw [← hstate]
    have hshared : (journal text a w (⟨hooks, op⟩ :: ms)).shared =
        (journal text (a.step text hooks w op).state (a.step text hooks w op).world ms).shared := by
      rw [Journal.shared, journal_cons]
      exact List.filter_cons_of_neg (by simp [hop, Journal.entry])
    rw [hshared, journal_cons]
    exact hrest

theorem quiet_of_mem {e : Entry W A X C I V P E} (he : e ∈ (journal text a w ms).entries)
    (hop : e.op.plain? = none) : e.after.recycler = e.before.recycler ∧ e.turn.events = [] := by
  obtain ⟨past, m, -, rfl⟩ := entry_of_mem he
  obtain ⟨hstate, -, hevents⟩ :=
    step_alone text m.hooks (journal text a w past).views (journal text a w past).world hop
  exact ⟨hstate, hevents⟩

theorem journal_refines (text : I → String) (context : X) (default : Option C) (compare : Option (Comparator I))
    (h : Over ms ms') (hblind : ∀ m ∈ ms, m.hooks.Blind alike) (hops : ∀ m ∈ ms', m.op.isSnapshot = false)
    (hw : alike w w') :
    let j := journal text (create context default compare) w ms
    List.Forall₂ Corresponds j.shared (entries (.create context none) w' ms') ∧
      (∀ e ∈ j.entries, e.op.plain? = none → e.after.recycler = e.before.recycler ∧ e.turn.events = []) ∧
      j.views.recycler = reached (.create context none) w' ms' ∧
      ∀ (otherDefault : Option C) (otherCompare : Option (Comparator I)) (v : W)
        (others : List (Move W A X C I V P E)),
        Over others ms' → (∀ m ∈ others, m.hooks.Blind alike) → alike v w' → ∀ item,
          (journal text (create context otherDefault otherCompare) v others).views.recycler.view? item =
            j.views.recycler.view? item := by
  intro j
  obtain ⟨hcorresponds, hlast⟩ := h.corresponds text (create context default compare) hblind hops hw
  refine ⟨hcorresponds, fun e he hop => quiet_of_mem he hop, hlast, ?_⟩
  intro otherDefault otherCompare v others hothers hblind' hv item
  have hlast' := (hothers.corresponds text (create context otherDefault otherCompare) hblind' hops hv).2
  rw [hlast', hlast]
  rfl

def noting : Hooks (Nat × List Nat) Unit Unit Bool Nat Nat Unit Unit where
  inflate w _ _ item index _ := ((w.1 + 1, index :: w.2), if item = 0 then .error () else .ok w.1)
  display w _ _ _ item _ _ := (w, if item = 9 then .error () else .ok ())
  dispose w _ view := (w.1, view :: w.2)
  save _ _ _ _ := none
  restore w _ _ _ _ := w

theorem noting_blind : noting.Blind fun w w' => w.1 = w'.1 where
  inflate h _ _ _ item _ _ _ := by simp [noting, h]
  display h _ _ _ item _ _ := by simp [noting, h]
  dispose {w w'} h x views views' hviews := by
    have hdispose (views : List Nat) (w : Nat × List Nat) : (views.foldl (noting.dispose · x ·) w).1 = w.1 := by
      induction views generalizing w with
      | nil => rfl
      | cons view views ih => exact ih _
    rw [hdispose, hdispose, h]

theorem journal_refines_noting :
    let inflate (item : Nat) : Op Unit Bool Nat Unit := .basic (.inflate item none ())
    let ms := [.basic (.setAdapter (some ())), inflate 7, inflate 5, .setDefault none, inflate 9, inflate 0,
      .setComparator none, inflate 7, .basic (.remove 5), inflate 5, .basic .removeAll, inflate 3, inflate 1].map
      (⟨noting, ·⟩)
    let ms' := plain List.reverse List.reverse_perm ms
    let j := journal toString (create () (some true) (some compare)) (0, []) ms
    let es := entries (.create () none) (0, []) ms'
    Over ms ms' ∧ (∀ m ∈ ms, m.hooks.Blind fun w w' => w.1 = w'.1) ∧ (∀ m ∈ ms', m.op.isSnapshot = false) ∧
      List.Forall₂ Corresponds j.shared es ∧ j.views.recycler = reached (.create () none) (0, []) ms' ∧
      j.views.recycler.active = [(3, 5), (1, 6)] ∧ j.world.2 = [1, 0, 4, 2, 0, 2, 1, 0, 2, 0, 0] ∧
      es.getLast?.map (·.turn.world.2) = some [1, 0, 0, 2, 4, 2, 1, 3, 2, 1, 0] := by
  intro inflate ms ms' j es
  have hover : Over ms ms' := over_plain List.reverse List.reverse_perm ms
  have hblind : ∀ m ∈ ms, m.hooks.Blind fun w w' => w.1 = w'.1 := by
    simp [ms, noting_blind]
  have hops : ∀ m ∈ ms', m.op.isSnapshot = false := by decide +kernel
  have hworlds : ((0, []) : Nat × List Nat).1 = ((0, []) : Nat × List Nat).1 := rfl
  obtain ⟨hcorresponds, -, hlast, -⟩ :=
    journal_refines toString () (some true) (some compare) hover hblind hops hworlds
  exact ⟨hover, hblind, hops, hcorresponds, hlast, by decide +kernel, by decide +kernel, by decide +kernel⟩

end Runs

end Attached

end TabDeck.Recycler
