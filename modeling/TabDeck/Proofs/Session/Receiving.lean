import Mathlib.Data.List.Induction
import TabDeck.Proofs.Session.Course

namespace TabDeck.Session

open TabDeck.Log (Record)

variable {X : Type}

section Receiving

def Event.session? : Event X → Option Nat
  | .finished session _ _ => some session
  | .typed session _ _ => some session
  | .pid session _ _ => some session
  | _ => none

def called (events : List (Event X)) : List Nat := events.filterMap Event.session?

def Event.written? (n : Nat) : Event X → Option String
  | .typed session _ text => if session = n then some text else none
  | _ => none

def Event.pid? (n : Nat) : Event X → Option Int
  | .pid session _ number => if session = n then some number else none
  | _ => none

def Event.finishes (n : Nat) : Event X → Bool
  | .finished session _ _ => decide (session = n)
  | _ => false

def Terminal.fresh (handle : String) : Terminal := ⟨handle, true, none, ""⟩

def Terminal.receive (n : Nat) (s : Terminal) : Event X → Terminal
  | .typed session _ text => if session = n then { s with input := s.input ++ text } else s
  | .pid session _ number => if session = n then { s with pid := some number } else s
  | .finished session _ _ => if session = n then { s with running := false } else s
  | _ => s

def Terminal.receiveAll (n : Nat) (s : Terminal) (events : List (Event X)) : Terminal :=
  events.foldl (Terminal.receive n) s

variable {n : Nat} {s : Terminal}

theorem receiveAll_append (l r : List (Event X)) :
    s.receiveAll n (l ++ r) = (s.receiveAll n l).receiveAll n r := List.foldl_append

theorem receive_of_ne {ev : Event X} (h : ev.session? ≠ some n) : s.receive n ev = s := by
  cases ev <;> simp_all [Event.session?, Terminal.receive]

theorem called_append (l r : List (Event X)) : called (l ++ r) = called l ++ called r := List.filterMap_append

theorem receiveAll_of_notMem {events : List (Event X)} (h : n ∉ called events) : s.receiveAll n events = s := by
  have hne : ∀ ev ∈ events, ev.session? ≠ some n := fun ev hev hn => h (List.mem_filterMap.mpr ⟨ev, hev, hn⟩)
  clear h
  induction events with
  | nil => rfl
  | cons ev events ih =>
    rw [Terminal.receiveAll, List.foldl_cons, receive_of_ne (hne ev List.mem_cons_self)]
    exact ih fun ev' hev' => hne ev' (List.mem_cons_of_mem _ hev')

theorem called_of_silent {events : List (Event X)} (h : ∀ ev ∈ events, ev.isCall = false) : called events = [] :=
  filterMap_silent (fun _ => rfl) rfl h

theorem receive_eq (ev : Event X) : s.receive n ev =
    ⟨s.handle, s.running && !ev.finishes n, (ev.pid? n).or s.pid, s.input ++ (ev.written? n).getD ""⟩ := by
  cases ev with
  | finished session | typed session | pid session =>
    by_cases hs : session = n <;> simp [Terminal.receive, Event.finishes, Event.pid?, Event.written?, hs]
  | _ => simp [Terminal.receive, Event.finishes, Event.pid?, Event.written?]

theorem receiveAll_eq (events : List (Event X)) : s.receiveAll n events =
    ⟨s.handle, s.running && !events.any (Event.finishes n), (events.filterMap (Event.pid? n)).getLast?.or s.pid,
      s.input ++ String.join (events.filterMap (Event.written? n))⟩ := by
  induction events using List.reverseRecOn with
  | nil => simp [Terminal.receiveAll]
  | append_singleton events ev ih =>
    have hlast : s.receiveAll n (events ++ [ev]) = (s.receiveAll n events).receive n ev := receiveAll_append _ _
    rw [hlast, receive_eq, ih, List.filterMap_append, List.filterMap_append, List.getLast?_append, List.any_append]
    cases hpid : ev.pid? n <;> cases hwritten : ev.written? n <;>
      simp [hpid, hwritten, Bool.and_assoc, String.append_assoc]

end Receiving

namespace Registry

section Course

variable {host : Nat → Parameter → String} {r : Registry X} {n : Nat} {s : Terminal}

theorem getElem?_modify_self {f : Terminal → Terminal} (hs : r.opened[n]? = some s) :
    (r.modify n f).opened[n]? = some (f s) := by
  simp [Registry.modify, hs]

theorem getElem?_modify_of_ne {f : Terminal → Terminal} {session : Nat} (h : session ≠ n) :
    (r.modify session f).opened[n]? = r.opened[n]? := by
  simp [Registry.modify, h]

theorem getElem?_modify {f : Terminal → Terminal} {session : Nat} (hs : r.opened[n]? = some s) :
    (r.modify session f).opened[n]? = some (if session = n then f s else s) := by
  by_cases h : session = n
  · subst h
    rw [getElem?_modify_self hs, if_pos rfl]
  · rw [getElem?_modify_of_ne h, if_neg h, hs]

theorem opened_finishAll (sessions : List Nat) (hs : r.opened[n]? = some s) :
    (r.finishAll sessions).registry.opened[n]? = some (s.receiveAll n (r.finishAll sessions).events) := by
  induction sessions generalizing r s with
  | nil => exact hs
  | cons session rest ih =>
    rw [finishAll, receiveAll_append]
    apply ih
    rw [finish]
    cases ht : r.opened[session]? with
    | none => exact hs
    | some t => exact getElem?_modify hs

theorem called_farewell (note note' : Record) : called (.note note :: r.farewell note') = [] :=
  filterMap_farewell rfl (fun _ => rfl) (fun _ => rfl) note note'

theorem Course.opened_before {op : Op X} {t : Turn X Answer} (h : Course host r op t)
    (hs : r.opened[n]? = some s) : t.registry.opened[n]? = some (s.receiveAll n t.events) := by
  cases h with
  | idle op answer events hidle hevents =>
    rw [receiveAll_of_notMem (by rw [called_of_silent hevents]; exact List.not_mem_nil)]
    exact hs
  | opened p hid =>
    obtain ⟨hn, -⟩ := List.getElem?_eq_some_iff.mp hs
    exact (List.getElem?_append_left hn).trans hs
  | reused p id m note hid hne hfind hcommand => exact hs
  | typed p id m command note hid hne hfind hcommand => exact getElem?_modify hs
  | removed handle i note hpos => exact hs
  | reported handle pid m note hfind => exact getElem?_modify hs
  | finished m t registered ht hfind => exact getElem?_modify hs
  | closed m t i note ht hpos => exact getElem?_modify hs
  | openedX x => exact hs
  | removedX op session i note hop hpos => exact hs
  | stopped note =>
    rw [receiveAll_append]
    exact opened_finishAll r.listed hs
  | shut op note note' hop =>
    rw [receiveAll_append, receiveAll_of_notMem (by rw [called_farewell]; exact List.not_mem_nil)]
    exact opened_finishAll r.listed hs
  | locked op note hop hlock => exact hs
  | unlocked op note hop hlock => exact hs

theorem finishes_finishAll {sessions : List Nat} :
    (∃ ev ∈ (r.finishAll sessions).events, ev.finishes n = true) ↔ n ∈ sessions ∧ n < r.opened.length := by
  constructor
  · rintro ⟨ev, hev, hn⟩
    obtain ⟨session, hmem, hlt, handle, wasRunning, rfl⟩ := mem_finishAll hev
    obtain rfl : session = n := of_decide_eq_true hn
    exact ⟨hmem, hlt⟩
  · rintro ⟨hmem, hlt⟩
    induction sessions generalizing r with
    | nil => exact absurd hmem List.not_mem_nil
    | cons session rest ih =>
      rcases List.mem_cons.mp hmem with rfl | hmem
      · refine ⟨.finished n r.opened[n].handle r.opened[n].running, List.mem_append_left _ ?_, decide_eq_true rfl⟩
        rw [finish, List.getElem?_eq_getElem hlt]
        exact List.mem_cons_self
      · obtain ⟨ev, hev, hn⟩ := ih (r := (r.finish session).registry) hmem (by rwa [length_finish])
        exact ⟨ev, List.mem_append_right _ hev, hn⟩

theorem lt_of_find? {handle : String} (h : r.find? handle = some n) : n < r.opened.length := by
  obtain ⟨-, t, ht, -⟩ := find?_mem h
  exact (List.getElem?_eq_some_iff.mp ht).1

theorem called_finishAll {sessions : List Nat} (h : n ∈ called (r.finishAll sessions).events) :
    n ∈ sessions ∧ n < r.opened.length := by
  obtain ⟨ev, hev, hn⟩ := List.mem_filterMap.mp h
  obtain ⟨session, hmem, hlt, handle, wasRunning, rfl⟩ := mem_finishAll hev
  obtain rfl : session = n := Option.some.inj hn
  exact ⟨hmem, hlt⟩

theorem Course.called_lt {op : Op X} {t : Turn X Answer} (h : Course host r op t) (hn : n ∈ called t.events) :
    n < r.opened.length := by
  cases h with
  | idle op answer events hidle hevents =>
    rw [called_of_silent hevents] at hn
    exact absurd hn List.not_mem_nil
  | typed p id m command note hid hne hfind hcommand =>
    obtain rfl : n = m := List.mem_singleton.mp hn
    exact lt_of_find? hfind
  | reported handle pid m note hfind =>
    obtain rfl : n = m := List.mem_singleton.mp hn
    exact lt_of_find? hfind
  | finished m t registered ht hfind =>
    obtain rfl : n = m := List.mem_singleton.mp hn
    exact (List.getElem?_eq_some_iff.mp ht).1
  | closed m t i note ht hpos =>
    obtain rfl : n = m := List.mem_singleton.mp hn
    exact (List.getElem?_eq_some_iff.mp ht).1
  | stopped note =>
    have hcalled : n ∈ called (r.finishAll r.listed).events := by
      simpa [called_append, called, Event.session?] using hn
    exact (called_finishAll hcalled).2
  | shut op note note' hop =>
    have hcalled : n ∈ called (r.finishAll r.listed).events := by
      rwa [called_append, called_farewell, List.append_nil] at hn
    exact (called_finishAll hcalled).2
  | _ => exact absurd hn List.not_mem_nil

theorem Course.opened_or {op : Op X} {t : Turn X Answer} (h : Course host r op t) :
    (∃ handle, t.registry.opened = r.opened ++ [.fresh handle]) ∨ t.registry.opened.length = r.opened.length := by
  cases h with
  | opened p hid => exact .inl ⟨host r.opened.length p, rfl⟩
  | typed p id m command note hid hne hfind hcommand => exact .inr (List.length_modify ..)
  | reported handle pid m note hfind => exact .inr (List.length_modify ..)
  | finished m t registered ht hfind => exact .inr (List.length_modify ..)
  | closed m t i note ht hpos => exact .inr (List.length_modify ..)
  | stopped note => exact .inr (length_finishAll r.listed)
  | shut op note note' hop => exact .inr (length_finishAll r.listed)
  | _ => exact .inr rfl

theorem Course.length_le {op : Op X} {t : Turn X Answer} (h : Course host r op t) :
    r.opened.length ≤ t.registry.opened.length := by
  rcases h.opened_or with ⟨handle, ht⟩ | ht
  · simp [ht]
  · exact Nat.le_of_eq ht.symm

structure Received (r : Registry X) (events : List (Event X)) : Prop where
  state : ∀ n s, r.opened[n]? = some s → s = (Terminal.fresh s.handle).receiveAll n events
  called_lt : ∀ n ∈ called events, n < r.opened.length

theorem receiveAll_handle (events : List (Event X)) : (s.receiveAll n events).handle = s.handle := by
  rw [receiveAll_eq]

theorem Received.course {events : List (Event X)} (h : r.Received events) {op : Op X} {t : Turn X Answer}
    (hc : Course host r op t) : t.registry.Received (events ++ t.events) := by
  have hlength := hc.length_le
  constructor
  · intro n s hs
    rw [receiveAll_append]
    by_cases hn : n < r.opened.length
    · have hbefore := List.getElem?_eq_getElem hn
      have hafter := Option.some.inj ((hc.opened_before hbefore).symm.trans hs)
      have hhandle : s.handle = r.opened[n].handle := by rw [← hafter, receiveAll_handle]
      rw [hhandle, ← h.state n _ hbefore, hafter]
    · -- the session was opened by this operation, so no call reached it
      have hcalled : n ∉ called events := fun hmem => hn (h.called_lt n hmem)
      have hcalled' : n ∉ called t.events := fun hmem => hn (hc.called_lt hmem)
      rw [receiveAll_of_notMem hcalled, receiveAll_of_notMem hcalled']
      have hlt := (List.getElem?_eq_some_iff.mp hs).1
      rcases hc.opened_or with ⟨handle, ht⟩ | ht
      · rw [ht] at hs hlt
        obtain rfl : n = r.opened.length := by
          rw [List.length_append, List.length_singleton] at hlt
          omega
        obtain rfl := Option.some.inj (List.getElem?_concat_length.symm.trans hs)
        rfl
      · omega
  · intro n hn
    rw [called_append] at hn
    rcases List.mem_append.mp hn with hn | hn
    · exact Nat.lt_of_lt_of_le (h.called_lt n hn) hlength
    · exact Nat.lt_of_lt_of_le (hc.called_lt hn) hlength

theorem run_received (host : Nat → Parameter → String) (ops : List (Op X)) :
    (empty.run host ops).registry.Received (empty.run host ops).events := by
  induction ops using List.reverseRecOn with
  | nil =>
    refine ⟨fun n s hs => ?_, fun n hn => ?_⟩
    · simp [run, empty] at hs
    · simp [run, called] at hn
  | append_singleton ops op ih =>
    rw [run_concat]
    exact ih.course (step_course host _ op)

end Course

end Registry

end TabDeck.Session
