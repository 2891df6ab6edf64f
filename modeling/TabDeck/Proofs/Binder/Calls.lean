import TabDeck.Proofs.Binder.Misses

namespace TabDeck.Binder

variable {L K D T P : Type}

namespace Event

def isHook : Event L K D T P → Bool
  | .prepared _ _ _ => true
  | .computed _ _ => true
  | .presented _ _ _ _ => true
  | .finished _ _ _ _ _ => true
  | _ => false

def isPrepared : Event L K D T P → Bool
  | .prepared _ _ _ => true
  | _ => false

def isComputed : Event L K D T P → Bool
  | .computed _ _ => true
  | _ => false

def isPresented : Event L K D T P → Bool
  | .presented _ _ _ _ => true
  | _ => false

def isShown : Event L K D T P → Bool
  | .presented _ _ _ _ => true
  | .finished _ _ _ _ _ => true
  | _ => false

end Event

section Filters

variable (hooks : Hooks L K D T P) (listener : Option L) (r : Request K T P) (data : Option D)

theorem filter_isHook_asking : (asking listener r : List (Event L K D T P)).filter Event.isHook = [] := by
  cases listener <;> rfl

theorem filter_isHook_outcome :
    (outcome hooks listener r data).filter Event.isHook = outcome hooks listener r data := by
  cases listener <;> rfl

theorem filter_isShown_outcome :
    (outcome hooks listener r data).filter Event.isShown = outcome hooks listener r data := by
  cases listener <;> rfl

theorem filter_isPrepared_outcome : (outcome hooks listener r data).filter Event.isPrepared = [] := by
  cases listener <;> rfl

theorem filter_isComputed_outcome : (outcome hooks listener r data).filter Event.isComputed = [] := by
  cases listener <;> rfl

theorem filter_isPresented_outcome :
    (outcome hooks listener r data).filter Event.isPresented = [.presented r.key data r.target r.params] := by
  cases listener <;> rfl

end Filters

variable [DecidableEq L] [DecidableEq K]

namespace Entry

variable (hooks : Hooks L K D T P) (survives : Bool) (e : Entry L K D T P)

def calls : List (Event L K D T P) := (e.result hooks survives).events.filter Event.isHook

def shown : List (Event L K D T P) := (e.calls hooks survives).filter Event.isShown

variable {hooks survives e} {i : Nat} {r : Request K T P} {d : Delivery K D T P}

theorem Vetoed.calls (h : e.Vetoed hooks r) (hq : e.before.reactions = []) : e.calls hooks survives = [] := by
  rw [Entry.calls, h.result hq, List.filter_append, filter_isHook_asking]
  rfl

theorem Hit.calls {data : D} (h : e.Hit hooks r data) (hq : e.before.reactions = []) :
    e.calls hooks survives = outcome hooks e.before.listener r (some data) := by
  rw [Entry.calls, h.result hq, List.filter_append, filter_isHook_asking]
  exact filter_isHook_outcome ..

theorem Missed.calls (h : e.Missed hooks r) (hq : e.before.reactions = []) :
    e.calls hooks survives = [.prepared r.key (hooks.prepared r).target r.params] := by
  rw [Entry.calls, h.result hq, List.filter_append, filter_isHook_asking]
  rfl

theorem Skipped.calls (h : e.Skipped i r) : e.calls hooks survives = [] := by
  rw [Entry.calls, h.result]
  rfl

theorem Panicked.calls (h : e.Panicked hooks i r) : e.calls hooks survives = [.computed r.key r.params] := by
  rw [Entry.calls, h.result]
  cases survives <;> rfl

theorem Computed.calls {data : Option D} (h : e.Computed hooks i r data) :
    e.calls hooks survives = [.computed r.key r.params] := by
  rw [Entry.calls, h.result]
  rfl

theorem Dropped.calls (h : e.Dropped i d) : e.calls hooks survives = [] := by
  rw [Entry.calls, h.result]
  rfl

theorem Delivered.calls (h : e.Delivered i d) (hq : e.before.reactions = []) :
    e.calls hooks survives = outcome hooks e.before.listener d.request d.data := by
  rw [Entry.calls, h.result hq]
  exact filter_isHook_outcome ..

end Entry

namespace Entry

variable {hooks : Hooks L K D T P} {survives : Bool} {e : Entry L K D T P}

def HasOutcome (hooks : Hooks L K D T P) (survives : Bool) (e : Entry L K D T P) : Prop :=
  ∃ r data, e.shown hooks survives = outcome hooks e.before.listener r data

theorem calls_canceled (h : e.move = .call .cancel) (hq : e.before.reactions = []) :
    e.calls hooks survives = [] := by
  rw [Entry.calls, Entry.result, h, move_cancel hq]
  cases e.before.listener <;> rfl

theorem calls_cleared (h : e.move = .call .clearCache) : e.calls hooks survives = [] := by
  rw [Entry.calls, Entry.result, h, move_clearCache]
  rfl

theorem calls_listening {listener : Option L} (h : e.move = .call (.setListener listener)) :
    e.calls hooks survives = [] := by
  rw [Entry.calls, Entry.result, h, move_setListener]
  rfl

theorem Idle.calls (h : e.Idle) : e.calls hooks survives = [] := by
  rw [Entry.calls, h.result]
  rfl

theorem shown_of_calls_eq_nil (h : e.calls hooks survives = []) : e.shown hooks survives = [] := by
  rw [shown, h]
  rfl

variable {i : Nat} {r : Request K T P} {d : Delivery K D T P} {data : Option D}

theorem Vetoed.shown (h : e.Vetoed hooks r) (hq : e.before.reactions = []) : e.shown hooks survives = [] :=
  shown_of_calls_eq_nil (h.calls hq)

theorem Hit.shown {data : D} (h : e.Hit hooks r data) (hq : e.before.reactions = []) :
    e.shown hooks survives = outcome hooks e.before.listener r (some data) := by
  rw [Entry.shown, h.calls hq, filter_isShown_outcome]

theorem Missed.shown (h : e.Missed hooks r) (hq : e.before.reactions = []) : e.shown hooks survives = [] := by
  rw [Entry.shown, h.calls hq]
  rfl

theorem Skipped.shown (h : e.Skipped i r) : e.shown hooks survives = [] :=
  shown_of_calls_eq_nil h.calls

theorem Panicked.shown (h : e.Panicked hooks i r) : e.shown hooks survives = [] := by
  rw [Entry.shown, h.calls]
  rfl

theorem Computed.shown (h : e.Computed hooks i r data) : e.shown hooks survives = [] := by
  rw [Entry.shown, h.calls]
  rfl

theorem Dropped.shown (h : e.Dropped i d) : e.shown hooks survives = [] :=
  shown_of_calls_eq_nil h.calls

theorem Delivered.shown (h : e.Delivered i d) (hq : e.before.reactions = []) :
    e.shown hooks survives = outcome hooks e.before.listener d.request d.data := by
  rw [Entry.shown, h.calls hq, filter_isShown_outcome]

theorem shown_eq_nil (hq : e.before.reactions = []) (hh : ∀ r data, ¬ e.Hit hooks r data)
    (hd : ∀ i d, ¬ e.Delivered i d) : e.shown hooks survives = [] := by
  cases e.kind hooks with
  | vetoed r h => exact h.shown hq
  | hit r data h => exact absurd h (hh r data)
  | missed r h => exact h.shown hq
  | skipped i r h => exact h.shown
  | panicked i r h => exact h.shown
  | computed i r data h => exact h.shown
  | dropped i d h => exact h.shown
  | delivered i d h => exact absurd h (hd i d)
  | canceled h => exact shown_of_calls_eq_nil (calls_canceled h hq)
  | cleared h => exact shown_of_calls_eq_nil (calls_cleared h)
  | listening listener h => exact shown_of_calls_eq_nil (calls_listening h)
  | idle h => exact shown_of_calls_eq_nil h.calls

theorem hit_or_delivered (hq : e.before.reactions = []) (h : e.shown hooks survives ≠ []) :
    (∃ r data, e.Hit hooks r data) ∨ ∃ i d, e.Delivered i d := by
  by_contra hn
  rw [not_or] at hn
  exact h (shown_eq_nil hq (fun r data hh => hn.1 ⟨r, data, hh⟩) fun i d hd => hn.2 ⟨i, d, hd⟩)

theorem shown_or_hasOutcome (hq : e.before.reactions = []) :
    e.shown hooks survives = [] ∨ e.HasOutcome hooks survives := by
  by_cases hs : e.shown hooks survives = []
  · exact .inl hs
  · rcases hit_or_delivered hq hs with ⟨r, data, h⟩ | ⟨i, d, h⟩
    · exact .inr ⟨r, some data, h.shown hq⟩
    · exact .inr ⟨d.request, d.data, h.shown hq⟩

end Entry

def callsOf (hooks : Hooks L K D T P) (survives : Bool) (l : List (Entry L K D T P)) : List (Event L K D T P) :=
  l.flatMap (Entry.calls hooks survives)

def shownOf (hooks : Hooks L K D T P) (survives : Bool) (l : List (Entry L K D T P)) : List (Event L K D T P) :=
  (callsOf hooks survives l).filter Event.isShown

section Lives

variable {hooks : Hooks L K D T P} {survives : Bool} {l : List (Entry L K D T P)} {e : Entry L K D T P}
  {s : Stage K D T P}

theorem callsOf_cons : callsOf hooks survives (e :: l) = e.calls hooks survives ++ callsOf hooks survives l :=
  List.flatMap_cons

theorem shownOf_cons : shownOf hooks survives (e :: l) = e.shown hooks survives ++ shownOf hooks survives l := by
  rw [shownOf, callsOf_cons, List.filter_append]
  rfl

theorem shownOf_concat : shownOf hooks survives (l ++ [e]) = shownOf hooks survives l ++ e.shown hooks survives := by
  rw [shownOf, callsOf, List.flatMap_append, List.filter_append, List.flatMap_singleton]
  rfl

theorem Life.shown (h : Life hooks l s) (hs : s ≠ .closed) (hq : ∀ e ∈ l, e.before.reactions = []) :
    shownOf hooks survives l = [] := by
  induction h with
  | unmade => rfl
  | @missed l e r past step ih =>
    have hl := ih nofun fun e' he' => hq e' (List.mem_append_left _ he')
    rw [shownOf_concat, hl, step.shown (hq e List.mem_concat_self)]
    rfl
  | @computed l e i r data past step ih =>
    have hl := ih nofun fun e' he' => hq e' (List.mem_append_left _ he')
    rw [shownOf_concat, hl, step.shown]
    rfl
  | _ => exact absurd rfl hs

theorem Life.once_concat (h : Life hooks l s) (hs : s ≠ .closed)
    (hq : ∀ e' ∈ l ++ [e], e'.before.reactions = []) :
    shownOf hooks survives (l ++ [e]) = [] ∨
      ∃ e' ∈ l ++ [e], e'.HasOutcome hooks survives ∧
        shownOf hooks survives (l ++ [e]) = e'.shown hooks survives := by
  have hl : shownOf hooks survives (l ++ [e]) = e.shown hooks survives := by
    rw [shownOf_concat, h.shown hs fun e' he' => hq e' (List.mem_append_left _ he')]
    rfl
  rcases e.shown_or_hasOutcome (hq e List.mem_concat_self) with hn | ho
  · exact .inl (hl.trans hn)
  · exact .inr ⟨e, List.mem_concat_self, ho, hl⟩

theorem Life.once (h : Life hooks l s) (hq : ∀ e ∈ l, e.before.reactions = []) :
    shownOf hooks survives l = [] ∨
      ∃ e ∈ l, e.HasOutcome hooks survives ∧ shownOf hooks survives l = e.shown hooks survives := by
  cases h with
  | unmade => exact .inl rfl
  | vetoed past => exact past.once_concat nofun hq
  | hit past => exact past.once_concat nofun hq
  | missed past => exact past.once_concat nofun hq
  | skipped past => exact past.once_concat nofun hq
  | panicked past => exact past.once_concat nofun hq
  | computed past => exact past.once_concat nofun hq
  | dropped past => exact past.once_concat nofun hq
  | delivered past => exact past.once_concat nofun hq

end Lives

end TabDeck.Binder
