import Mathlib.Data.List.Induction
import TabDeck.Proofs.Lookup
import TabDeck.Proofs.Recycler.Step
/-!
Journals: runs of a recycler that note every operation with the state before it and what it led to.
-/
namespace TabDeck.Recycler.Attached

variable {W A X C I V P E : Type}

structure Move (W A X C I V P E : Type) where
  hooks : Hooks W A X C I V P E
  op : Op A C I P

structure Entry (W A X C I V P E : Type) where
  before : Attached A X C I V
  op : Op A C I P
  turn : Turn (Attached A X C I V) W (Event A X C I V P) (Answer A V E)

structure Journal (W A X C I V P E : Type) where
  views : Attached A X C I V
  world : W
  entries : List (Entry W A X C I V P E)

namespace Entry

def after (e : Entry W A X C I V P E) : Attached A X C I V := e.turn.state

def resolved (e : Entry W A X C I V P E) : Option C :=
  match e.op with
  | .basic (.inflate _ container _) => container.or e.before.defaultContainer
  | _ => none

variable [DecidableEq I]

def creates (e : Entry W A X C I V P E) (item : I) : Bool :=
  !e.before.recycler.isActive item && e.after.recycler.isActive item

def made? (e : Entry W A X C I V P E) : Option V :=
  match e.op with
  | .basic (.inflate item _ _) => if e.creates item then e.after.recycler.view? item else none
  | _ => none

end Entry

def Journal.events (j : Journal W A X C I V P E) : List (Event A X C I V P) := j.entries.flatMap (·.turn.events)

variable [DecidableEq I] (text : I → String)

def Journal.entry (j : Journal W A X C I V P E) (m : Move W A X C I V P E) : Entry W A X C I V P E :=
  ⟨j.views, m.op, j.views.step text m.hooks j.world m.op⟩

def Journal.next (j : Journal W A X C I V P E) (m : Move W A X C I V P E) : Journal W A X C I V P E :=
  ⟨(j.entry text m).after, (j.entry text m).turn.world, j.entries ++ [j.entry text m]⟩

def journal (start : Attached A X C I V) (w : W) (ms : List (Move W A X C I V P E)) : Journal W A X C I V P E :=
  ms.foldl (Journal.next text) ⟨start, w, []⟩

def creator? (es : List (Entry W A X C I V P E)) (item : I) : Option (Entry W A X C I V P E) :=
  es.reverse.find? (·.creates item)

variable {text} {start : Attached A X C I V} {w : W}

theorem filterMap_cons_toList {M N : Type} (f : M → Option N) (m : M) (l : List M) :
    (m :: l).filterMap f = (f m).toList ++ l.filterMap f := by
  rw [List.filterMap_cons]
  cases f m <;> rfl

theorem journal_concat (ms : List (Move W A X C I V P E)) (m : Move W A X C I V P E) :
    journal text start w (ms ++ [m]) = (journal text start w ms).next text m := by
  rw [journal, List.foldl_append]
  rfl

theorem entries_concat (ms : List (Move W A X C I V P E)) (m : Move W A X C I V P E) :
    (journal text start w (ms ++ [m])).entries =
      (journal text start w ms).entries ++ [(journal text start w ms).entry text m] := by
  rw [journal_concat]
  rfl

theorem entries_past {past ms : List (Move W A X C I V P E)} (h : past <+: ms) :
    (journal text start w past).entries <+: (journal text start w ms).entries := by
  obtain ⟨rest, rfl⟩ := h
  induction rest using List.reverseRecOn with
  | nil => simp
  | append_singleton rest m ih =>
    rw [← List.append_assoc, entries_concat]
    exact ih.trans (List.prefix_append ..)

theorem foldl_next (j : Journal W A X C I V P E) (ms : List (Move W A X C I V P E)) :
    ms.foldl (Journal.next text) j =
      { journal text j.views j.world ms with entries := j.entries ++ (journal text j.views j.world ms).entries } := by
  induction ms generalizing j with
  | nil => rw [journal, List.foldl_nil, List.foldl_nil, List.append_nil]
  | cons m ms ih =>
    rw [journal, List.foldl_cons, List.foldl_cons, ih, ih (Journal.next text ⟨j.views, j.world, []⟩ m)]
    simp only [Journal.next, Journal.entry, List.append_assoc, List.nil_append]

theorem journal_cons (m : Move W A X C I V P E) (ms : List (Move W A X C I V P E)) :
    let e := Journal.entry text ⟨start, w, []⟩ m
    journal text start w (m :: ms) =
      { journal text e.after e.turn.world ms with entries := e :: (journal text e.after e.turn.world ms).entries } :=
  foldl_next (Journal.next text ⟨start, w, []⟩ m) ms

theorem events_next (j : Journal W A X C I V P E) (m : Move W A X C I V P E) :
    (j.next text m).events = j.events ++ (j.entry text m).turn.events := by
  simp [Journal.events, Journal.next]

theorem creator?_concat (es : List (Entry W A X C I V P E)) (e : Entry W A X C I V P E) (item : I) :
    creator? (es ++ [e]) item = if e.creates item then some e else creator? es item := by
  rw [creator?, List.reverse_concat, List.find?_cons]
  cases e.creates item <;> rfl

theorem entry_change (j : Journal W A X C I V P E) (m : Move W A X C I V P E) :
    let e := j.entry text m
    e.before.Change e.after e.turn.events e.op := step_change m.op

section Views

variable {a after : Attached A X C I V} {events : List (Event A X C I V P)} {item other : I} {container : Option C}
  {view : V}

theorem Made.view?_self (h : a.Made after events item container view) :
    after.recycler.view? item = some view := by
  rw [Recycler.view?, h.active]
  exact lookup_concat_self h.inactive

theorem Made.view?_of_ne (h : a.Made after events item container view) (hi : other ≠ item) :
    after.recycler.view? other = a.recycler.view? other := by
  rw [Recycler.view?, h.active]
  exact lookup_concat_of_ne hi

theorem Taken.view?_of_ne (h : a.Taken after events item view) (hi : other ≠ item) :
    after.recycler.view? other = a.recycler.view? other := by
  rw [Recycler.view?, h.active]
  exact lookup_filter_of_ne hi _

theorem Taken.view?_self (h : a.Taken after events item view) : after.recycler.view? item = none := by
  rw [Recycler.view?, h.active]
  exact lookup_filter_self _

theorem Cleared.view? {views : List (I × V)} {cleared : List C} (h : a.Cleared after events views cleared)
    (item : I) : after.recycler.view? item = none := by
  rw [Recycler.view?, h.active]
  rfl

theorem Kept.view? (h : a.Kept after events) (item : I) : after.recycler.view? item = a.recycler.view? item :=
  congrArg (List.lookup item) h.active

end Views

section Creation

variable {e : Entry W A X C I V P E} {item : I}

theorem isActive_iff {r : Recycler A X I V} : r.isActive item = true ↔ ∃ v, r.view? item = some v :=
  Option.isSome_iff_exists

theorem not_isActive_iff {r : Recycler A X I V} : r.isActive item = false ↔ r.view? item = none := by
  simp [Recycler.isActive]

theorem creates_iff_view? : e.creates item = true ↔
    e.before.recycler.view? item = none ∧ ∃ v, e.after.recycler.view? item = some v := by
  rw [Entry.creates, Bool.and_eq_true, Bool.not_eq_true', not_isActive_iff, isActive_iff]

theorem not_creates_of_view? {v : V} (h : e.before.recycler.view? item = some v) : e.creates item = false := by
  rw [Entry.creates, isActive_iff.mpr ⟨v, h⟩]
  rfl

omit [DecidableEq I] in
theorem resolved_inflate {container : Option C} {params : P} (hop : e.op = .basic (.inflate item container params)) :
    e.resolved = container.or e.before.defaultContainer := by
  rw [Entry.resolved, hop]

theorem creates_iff (h : e.before.Change e.after e.turn.events e.op) : e.creates item = true ↔
    ∃ container params view, e.op = .basic (.inflate item container params) ∧
      e.before.Made e.after e.turn.events item (container.or e.before.defaultContainer) view := by
  rw [creates_iff_view?]
  constructor
  · rintro ⟨hb, v, hv⟩
    cases h with
    | made item' container params view hop h =>
      by_cases hi : item = item'
      · subst hi
        exact ⟨container, params, view, hop, h⟩
      · rw [h.view?_of_ne hi, hb] at hv
        cases hv
    | taken item' view h =>
      by_cases hi : item = item'
      · rw [hi, h.view?_self] at hv
        cases hv
      · rw [h.view?_of_ne hi, hb] at hv
        cases hv
    | cleared views cleared h =>
      rw [h.view?] at hv
      cases hv
    | kept h =>
      rw [h.view?, hb] at hv
      cases hv
  · rintro ⟨container, params, view, -, h⟩
    exact ⟨h.inactive, view, h.view?_self⟩

theorem Made.made? {container : Option C} {params : P} {view : V}
    (h : e.before.Made e.after e.turn.events item (container.or e.before.defaultContainer) view)
    (hop : e.op = .basic (.inflate item container params)) : e.made? = some view := by
  have hc : e.creates item = true := creates_iff_view?.mpr ⟨h.inactive, view, h.view?_self⟩
  rw [Entry.made?, hop]
  simp only [hc, if_true, h.view?_self]

theorem isSome_made? (h : e.before.Change e.after e.turn.events e.op) (hc : e.creates item = true) :
    e.made?.isSome = true := by
  obtain ⟨container, params, view, hop, hm⟩ := (creates_iff h).mp hc
  rw [hm.made? hop]
  rfl

end Creation

theorem entry_of_mem {ms : List (Move W A X C I V P E)} {e : Entry W A X C I V P E}
    (he : e ∈ (journal text start w ms).entries) :
    ∃ past m, past ++ [m] <+: ms ∧ e = (journal text start w past).entry text m := by
  induction ms using List.reverseRecOn with
  | nil => exact absurd he List.not_mem_nil
  | append_singleton ms m ih =>
    rw [entries_concat] at he
    rcases List.mem_append.mp he with he | he
    · obtain ⟨past, m', hp, rfl⟩ := ih he
      exact ⟨past, m', hp.trans (List.prefix_append ..), rfl⟩
    · exact ⟨ms, m, List.prefix_rfl, List.mem_singleton.mp he⟩

theorem change_of_mem {ms : List (Move W A X C I V P E)} {e : Entry W A X C I V P E}
    (he : e ∈ (journal text start w ms).entries) : e.before.Change e.after e.turn.events e.op := by
  obtain ⟨past, m, -, rfl⟩ := entry_of_mem he
  exact entry_change _ m

end TabDeck.Recycler.Attached
