import TabDeck.Proofs.Binder.Storage
/-!
The reach of cancellation: a miss is delivered exactly if its own steps come when the most recent load or cancel was
a load.
-/
namespace TabDeck.Binder

variable {L K D T P : Type}

inductive Switch where
  | load
  | cancel

def Switch.flag : Switch → Bool
  | .load => false
  | .cancel => true

def Move.switch? : Move L K T P → Option Switch
  | .call (.load _ _ _) => some .load
  | .call .cancel => some .cancel
  | _ => none

def lastSwitch (ms : List (Move L K T P)) : Option Switch := ms.reverse.findSome? Move.switch?

theorem lastSwitch_concat (ms : List (Move L K T P)) (m : Move L K T P) :
    lastSwitch (ms ++ [m]) = m.switch?.or (lastSwitch ms) := by
  rw [lastSwitch, List.reverse_concat, List.findSome?_cons]
  cases m.switch? <;> rfl

/-- A stretch of a run after a cancel and without loads. -/
structure Window (ms before within : List (Move L K T P)) : Prop where
  prefix_run : before ++ .call .cancel :: within <+: ms
  unloaded : ∀ m ∈ within, m.switch? ≠ some .load

theorem lastSwitch_window {before within : List (Move L K T P)} (h : ∀ m ∈ within, m.switch? ≠ some .load) :
    lastSwitch (before ++ .call .cancel :: within) = some .cancel := by
  induction within using List.reverseRecOn with
  | nil => rw [lastSwitch_concat]; rfl
  | append_singleton within m ih =>
    have hw := ih fun m' hm' => h m' (List.mem_append_left _ hm')
    rw [← List.cons_append, ← List.append_assoc, lastSwitch_concat, hw]
    have hm := h m List.mem_concat_self
    cases hs : m.switch? with
    | none => rfl
    | some s =>
      cases s with
      | load => exact absurd hs hm
      | cancel => rfl

namespace Entry

def Within (e : Entry L K D T P) (before within : List (Move L K T P)) : Prop :=
  before.length < e.time ∧ e.time ≤ before.length + within.length

variable [DecidableEq L] [DecidableEq K] {hooks : Hooks L K D T P} {survives : Bool} {e : Entry L K D T P}

theorem canceled_result (hq : e.before.reactions = []) :
    (e.result hooks survives).binder.canceled = e.move.switch?.elim e.before.canceled Switch.flag := by
  cases e.kind hooks with
  | vetoed r h => rw [h.result hq, h.loads]; rfl
  | hit r data h => rw [h.result hq, h.loads]; rfl
  | missed r h => rw [h.result hq, h.loads]; rfl
  | skipped i r h => rw [h.result, h.works.move]; rfl
  | panicked i r h => rw [h.result, h.works.move]; rfl
  | computed i r data h => rw [h.result, h.works.move]; rfl
  | dropped i d h => rw [h.result, h.delivers.move]; rfl
  | delivered i d h => rw [h.result hq, h.delivers.move]; rfl
  | canceled h => rw [Entry.result, h, move_cancel hq]; rfl
  | cleared h => rw [Entry.result, h, move_clearCache]; rfl
  | listening listener h => rw [Entry.result, h, move_setListener]; rfl
  | idle h =>
    rw [h.result]
    rcases h with ⟨i, hm, -⟩ | ⟨i, hm, -⟩
    · rw [hm]; rfl
    · rw [hm]; rfl

theorem queues_result (hq : e.before.reactions = []) (hm : e.move.switch? = none)
    (hr : e.before.requests = []) (hd : e.before.deliveries = []) :
    (e.result hooks survives).binder.requests = [] ∧ (e.result hooks survives).binder.deliveries = [] := by
  have loads {r : Request K T P} : ¬ e.Loads r := by
    intro h
    rw [h] at hm
    cases hm
  have works {i : Nat} {r : Request K T P} : ¬ e.Works i r := by
    intro h
    have hi := h.request
    rw [hr] at hi
    cases hi
  have delivers {i : Nat} {d : Delivery K D T P} : ¬ e.Delivers i d := by
    intro h
    have hi := h.delivery
    rw [hd] at hi
    cases hi
  cases e.kind hooks with
  | vetoed r h => exact absurd h.loads loads
  | hit r data h => exact absurd h.loads loads
  | missed r h => exact absurd h.loads loads
  | skipped i r h => exact absurd h.works works
  | panicked i r h => exact absurd h.works works
  | computed i r data h => exact absurd h.works works
  | dropped i d h => exact absurd h.delivers delivers
  | delivered i d h => exact absurd h.delivers delivers
  | canceled h => rw [Entry.result, h, move_cancel hq]; exact ⟨hr, hd⟩
  | cleared h => rw [Entry.result, h, move_clearCache]; exact ⟨hr, hd⟩
  | listening listener h => rw [Entry.result, h, move_setListener]; exact ⟨hr, hd⟩
  | idle h => rw [h.result]; exact ⟨hr, hd⟩

theorem shown_canceled (hq : e.before.reactions = []) (hm : e.move.switch? ≠ some .load)
    (hc : e.before.canceled = true) : e.shown hooks survives = [] := by
  refine shown_eq_nil hq ?_ ?_
  · intro r data h
    rw [h.loads] at hm
    exact hm rfl
  · intro i d h
    exact nomatch hc.symm.trans h.active

theorem peek?_canceled (hq : e.before.reactions = []) (hc : e.before.canceled = true) {k : K} {v : D}
    (hv : (e.result hooks survives).binder.cache.peek? k = some v) : e.before.cache.peek? k = some v := by
  rcases stores_or_peek? hq hv with ⟨i, d, h, -⟩ | ⟨h, -⟩
  · exact nomatch hc.symm.trans h.active
  · exact h

end Entry

section Journals

variable [DecidableEq L] [DecidableEq K] {hooks : Hooks L K D T P} {survives : Bool} {cache : Cache K D}
  {ms : List (Move L K T P)} {e : Entry L K D T P}

theorem journal_canceled (ms : List (Move L K T P)) :
    (journal hooks survives cache ms).binder.canceled = (lastSwitch ms).elim false Switch.flag := by
  induction ms using List.reverseRecOn with
  | nil => rfl
  | append_singleton ms m ih =>
    have hflag : (journal hooks survives cache (ms ++ [m])).binder.canceled =
        m.switch?.elim (journal hooks survives cache ms).binder.canceled Switch.flag := by
      rw [journal_concat]
      exact Entry.canceled_result (e := (journal hooks survives cache ms).entry m) (journal_quiet ms)
    rw [hflag, ih, lastSwitch_concat]
    cases m.switch? <;> rfl

theorem journal_queues (h : lastSwitch ms = none) :
    (journal hooks survives cache ms).binder.requests = [] ∧
      (journal hooks survives cache ms).binder.deliveries = [] := by
  induction ms using List.reverseRecOn with
  | nil => exact ⟨rfl, rfl⟩
  | append_singleton ms m ih =>
    rw [lastSwitch_concat] at h
    obtain ⟨hm, hms⟩ := Option.or_eq_none_iff.mp h
    obtain ⟨hr, hd⟩ := ih hms
    rw [journal_concat]
    exact Entry.queues_result (e := (journal hooks survives cache ms).entry m) (journal_quiet ms) hm hr hd

theorem active_iff_of_ne_none (he : e ∈ (journal hooks survives cache ms).entries)
    (h : lastSwitch (ms.take e.time) ≠ none) : e.Active ↔ lastSwitch (ms.take e.time) = some .load := by
  rw [Entry.Active, before_eq_binder he, journal_canceled]
  cases hs : lastSwitch (ms.take e.time) with
  | none => exact absurd hs h
  | some s =>
    cases s with
    | load => exact iff_of_true rfl rfl
    | cancel => exact iff_of_false nofun nofun

theorem active_iff_of_works {i : Nat} {r : Request K T P} (he : e ∈ (journal hooks survives cache ms).entries)
    (hw : e.Works i r) : e.Active ↔ lastSwitch (ms.take e.time) = some .load := by
  -- without a load there would be no request to work on
  refine active_iff_of_ne_none he fun h => ?_
  have hr := hw.request
  rw [before_eq_binder he, (journal_queues h).1] at hr
  cases hr

theorem active_iff_of_delivers {i : Nat} {d : Delivery K D T P}
    (he : e ∈ (journal hooks survives cache ms).entries) (hu : e.Delivers i d) :
    e.Active ↔ lastSwitch (ms.take e.time) = some .load := by
  refine active_iff_of_ne_none he fun h => ?_
  have hd := hu.delivery
  rw [before_eq_binder he, (journal_queues h).2] at hd
  cases hd

variable {before within : List (Move L K T P)}

theorem Window.switches (h : Window ms before within) (he : e ∈ (journal hooks survives cache ms).entries)
    (hw : e.Within before within) :
    lastSwitch (ms.take e.time) = some .cancel ∧ e.move.switch? ≠ some .load := by
  obtain ⟨rest, hms⟩ := h.prefix_run
  obtain ⟨hlo, hhi⟩ := hw
  -- `t` steps of the stretch come before this one
  obtain ⟨t, ht⟩ : ∃ t, e.time = before.length + 1 + t := ⟨e.time - (before.length + 1), by omega⟩
  have hlt : t < within.length := by omega
  have hrun : ms = before ++ [.call .cancel] ++ (within ++ rest) := by
    rw [← hms]
    simp
  have hlen : e.time = (before ++ [Move.call .cancel]).length + t := by simpa using ht
  constructor
  · have htake : ms.take e.time = before ++ .call .cancel :: within.take t := by
      rw [hrun, hlen, List.take_length_add_append, List.take_append_of_le_length (Nat.le_of_lt hlt),
        List.append_assoc]
      rfl
    rw [htake]
    exact lastSwitch_window fun m hm => h.unloaded m (List.mem_of_mem_take hm)
  · have hm := (entry_of_mem he).1
    rw [hrun, hlen, List.getElem?_append_right (Nat.le_add_right _ _), Nat.add_sub_cancel_left,
      List.getElem?_append_left hlt] at hm
    exact h.unloaded e.move (List.mem_of_getElem? hm)

theorem Window.canceled (h : Window ms before within) (he : e ∈ (journal hooks survives cache ms).entries)
    (hw : e.Within before within) : e.before.canceled = true := by
  rw [before_eq_binder he, journal_canceled, (h.switches he hw).1]
  rfl

end Journals

variable [DecidableEq L] [DecidableEq K]

structure Journal.Cancellation (hooks : Hooks L K D T P) (survives : Bool) (ms : List (Move L K T P))
    (j : Journal L K D T P) : Prop where
  delivered (n : Nat) (e : Entry L K D T P) (r : Request K T P) : e ∈ j.own n → e.Missed hooks r →
    (shownOf hooks survives (j.own n) ≠ [] ↔
      Granted hooks (fun e => lastSwitch (ms.take e.time) = some .load) (j.own n) (hooks.prepared r))
  silent (before within : List (Move L K T P)) : Window ms before within →
    ∀ e ∈ j.entries, e.Within before within → e.shown hooks survives = [] ∧
      ∀ k d, (e.result hooks survives).binder.cache.peek? k = some d → e.before.cache.peek? k = some d
  skipped (before within : List (Move L K T P)) : Window ms before within →
    ∀ n, ∀ w ∈ j.own n, w.Within before within → ∀ i r, w.Works i r →
      (callsOf hooks survives (j.own n)).filter Event.isComputed = [] ∧ shownOf hooks survives (j.own n) = []
  waiting (n : Nat) (e : Entry L K D T P) (r : Request K T P) : e ∈ j.own n → e.Missed hooks r →
    (n, hooks.prepared r) ∈ j.requests ∨ ∃ w ∈ j.own n, ∃ i, w.Works i (hooks.prepared r)
  returning (n : Nat) (w : Entry L K D T P) (i : Nat) (r : Request K T P) (data : Option D) : w ∈ j.own n →
    w.Computed hooks i r data → (n, ⟨r, data⟩) ∈ j.deliveries ∨ ∃ u ∈ j.own n, ∃ k, u.Delivers k ⟨r, data⟩

variable {hooks : Hooks L K D T P} {survives : Bool} {cache : Cache K D}

theorem journal_cancellation (ms : List (Move L K T P)) :
    (journal hooks survives cache ms).Cancellation hooks survives ms := by
  refine ⟨?_, ?_, ?_, ?_, ?_⟩
  · intro n e r he hm
    obtain ⟨s, hmiss, -⟩ := miss_of_mem_own he hm
    obtain ⟨hshown, hsilent⟩ := hmiss.shown hm own_quiet
    constructor
    · intro hne
      refine Granted.imp (not_not.mp (mt hsilent hne)) ?_ ?_
      · exact fun w hw i q hworks => (active_iff_of_works (Journal.mem_own.mp hw).1 hworks).mp
      · exact fun u hu k d hdelivers => (active_iff_of_delivers (Journal.mem_own.mp hu).1 hdelivers).mp
    · intro hg
      have hactive : Granted hooks Entry.Active _ _ := Granted.imp hg
        (fun w hw i q hworks => (active_iff_of_works (Journal.mem_own.mp hw).1 hworks).mpr)
        fun u hu k d hdelivers => (active_iff_of_delivers (Journal.mem_own.mp hu).1 hdelivers).mpr
      obtain ⟨u, -, data, hu⟩ := hshown hactive
      rw [hu]
      exact List.cons_ne_nil _ _
  · intro before within hwindow e he hw
    have hq := entry_quiet he
    have hm := (hwindow.switches he hw).2
    have hc := hwindow.canceled he hw
    exact ⟨Entry.shown_canceled hq hm hc, fun k d hd => Entry.peek?_canceled hq hc hd⟩
  · intro before within hwindow n w hw hin i r hworks
    have hskipped : w.Skipped i r := ⟨hworks, hwindow.canceled (Journal.mem_own.mp hw).1 hin⟩
    obtain ⟨s, hs⟩ := (journal_consistent ms).stage n
    obtain ⟨e, he, q, hm⟩ := hs.life.missed_of_mem hw fun q hl => hl.not_works hworks
    have hown := (hs.life.miss he hm).of_skipped hm hw hskipped
    have hq := own_quiet e he
    rw [hown, shownOf_cons, shownOf_cons, callsOf_cons, callsOf_cons, hm.calls hq, hskipped.calls, hm.shown hq,
      hskipped.shown]
    exact ⟨rfl, rfl⟩
  · intro n e r he hm
    obtain ⟨s, hmiss, hs⟩ := miss_of_mem_own he hm
    by_cases hqueued : s = .queued (hooks.prepared r)
    · exact .inl (hs.request.mpr hqueued)
    · exact .inr (hmiss.exists_works hqueued)
  · intro n w i r data hw hc
    obtain ⟨s, hs⟩ := (journal_consistent ms).stage n
    obtain ⟨e, he, q, hm⟩ := hs.life.missed_of_mem hw fun q hl => hl.not_works hc.works
    rcases (hs.life.miss he hm).of_computed hm hw hc with hd | hu
    · exact .inl (hs.delivery.mpr hd)
    · exact .inr hu

end TabDeck.Binder
