import TabDeck.Proofs.Session.Book
import TabDeck.Proofs.Session.Renumbering

namespace TabDeck.Session

open TabDeck.Log (Record)

variable {X : Type}

def calls (events : List (Event X)) : List (Event X) := events.filter Event.isCall

theorem calls_append (l r : List (Event X)) : calls (l ++ r) = calls l ++ calls r := List.filter_append ..

namespace Registry

section Finishing

variable {r : Registry X}

def finishCall? (r : Registry X) (n : Nat) : Option (Event X) :=
  r.opened[n]?.map fun s => .finished n s.handle s.running

theorem getElem?_finish (session n : Nat) : (r.finish session).registry.opened[n]? =
    r.opened[n]?.map fun s => if session = n then { s with running := false } else s := by
  rw [finish]
  cases ht : r.opened[session]? with
  | none =>
    by_cases hn : session = n
    · subst hn
      rw [ht]
      rfl
    · simp [hn]
  | some t =>
    rw [modify, List.getElem?_modify]
    rfl

theorem getElem?_finishAll (sessions : List Nat) (n : Nat) : (r.finishAll sessions).registry.opened[n]? =
    r.opened[n]?.map fun s => if n ∈ sessions then { s with running := false } else s := by
  induction sessions generalizing r with
  | nil => simp [finishAll]
  | cons session rest ih =>
    rw [finishAll, ih, getElem?_finish, Option.map_map]
    congr 1
    funext s
    by_cases hn : session = n <;> by_cases hrest : n ∈ rest <;> simp [hn, hrest, Ne.symm]

theorem calls_finishAll (sessions : List Nat) :
    calls (r.finishAll sessions).events = (r.finishAll sessions).events := by
  apply List.filter_eq_self.mpr
  intro ev hev
  obtain ⟨session, -, -, handle, wasRunning, rfl⟩ := mem_finishAll hev
  rfl

theorem events_finishAll {sessions : List Nat} (hd : sessions.Nodup) (hlt : ∀ n ∈ sessions, n < r.opened.length) :
    (r.finishAll sessions).events.map some = sessions.map r.finishCall? := by
  induction sessions generalizing r with
  | nil => rfl
  | cons session rest ih =>
    obtain ⟨hsession, hrest⟩ := List.nodup_cons.mp hd
    have hs := List.getElem?_eq_getElem (hlt session List.mem_cons_self)
    have hfirst : (r.finish session).events.map some = [r.finishCall? session] := by
      rw [finish, finishCall?, hs]
      rfl
    -- the sessions that follow are others, and these are as they were
    have hothers : rest.map (r.finish session).registry.finishCall? = rest.map r.finishCall? := by
      apply List.map_congr_left
      intro n hn
      have hne : session ≠ n := fun he => hsession (he ▸ hn)
      rw [finishCall?, getElem?_finish, finishCall?]
      simp [hne]
    rw [finishAll, List.map_append, hfirst, ih hrest, hothers]
    · rfl
    · intro n hn
      rw [length_finish]
      exact hlt n (List.mem_cons_of_mem _ hn)

end Finishing

section Shutdown

/-- All listed sessions are finished in their order, while the registry still lists them. Then the lock is released
if it was held, and the status that is left is told once if that, or the list, has changed it. -/
structure Shut (r : Registry X) (t : Turn X Answer) : Prop where
  nodup : r.listed.Nodup
  finished : (calls r.stopAll.events).map some = r.listed.map r.finishCall?
  stillListed : r.stopAll.registry.listed = r.listed
  told : ∃ told, t.events = r.stopAll.events ++ told ∧
    calls told = (if r.lockHeld then [.unlocked] else []) ++
      if r.listed ≠ [] ∨ r.lockHeld = true then [t.registry.publish] else []
  terminals : ∀ n, t.registry.opened[n]? =
    r.opened[n]?.map fun s => if n ∈ r.listed then { s with running := false } else s
  listed : t.registry.listed = []
  lockHeld : t.registry.lockHeld = false
  openedX : t.registry.openedX = r.openedX
  listedX : t.registry.listedX = r.listedX

structure Unknown (host : Nat → Parameter → String) (r : Registry X) (handle : String) : Prop where
  find : r.find? handle = none
  reused : ∀ p : Parameter, ∃ notes : List Record,
    r.step host (.create { p with id := some handle }) = ⟨r, notes.map .note,
      .session (.error (if handle = "" then .argument ⟨"session id must not be empty"⟩ else .notFound handle))⟩
  removed : r.step host (.remove handle) = ⟨r, [], .position none⟩

def renewed (r : Registry X) : Registry X := { (empty : Registry X) with openedX := r.openedX, listedX := r.listedX }

variable {r : Registry X}

theorem Keeps.nodup_listed {b : Book X} (h : r.Keeps b) : r.listed.Nodup := by
  rw [h.listed]
  exact Roll.nodup_present _

theorem Keeps.lt_of_listed {b : Book X} (h : r.Keeps b) {n : Nat} (hn : n ∈ r.listed) : n < r.opened.length := by
  rw [h.listed] at hn
  obtain ⟨handle, hhandle⟩ := Roll.mem_present.mp hn
  rw [h.length]
  exact (List.getElem?_eq_some_iff.mp hhandle).1

theorem calls_farewell (note : Record) : calls (r.farewell note) =
    (if r.lockHeld then [.unlocked] else []) ++
      if r.listed ≠ [] ∨ r.lockHeld = true then [r.emptied.publish] else [] := by
  rw [farewell]
  cases r.lockHeld with
  | true =>
    rw [if_pos rfl, if_pos (Or.inr rfl)]
    rfl
  | false => cases r.listed <;> simp [calls, Event.isCall, publish]

theorem shut_emptied (hd : r.listed.Nodup) (hlt : ∀ n ∈ r.listed, n < r.opened.length) (note : Record) :
    Shut r ⟨r.emptied, r.stopAll.events ++ r.farewell note, .done⟩ := by
  have hcalls : calls r.stopAll.events = (r.finishAll r.listed).events := by
    rw [stopAll, calls_append, calls_finishAll]
    exact List.append_nil _
  have hsteady := steady_stopAll r
  refine ⟨hd, ?_, hsteady.listed, ⟨_, rfl, calls_farewell note⟩, getElem?_finishAll r.listed, rfl, rfl,
    hsteady.openedX, hsteady.listedX⟩
  rw [hcalls, events_finishAll hd hlt]

theorem unknown_of_nil (host : Nat → Parameter → String) (h : r.listed = []) (handle : String) :
    r.Unknown host handle := by
  have hfind : r.find? handle = none := by rw [find?, h, List.find?_nil]
  refine ⟨hfind, fun p => ?_, ?_⟩
  · rw [step, create]
    simp only [reuse, Check.notEmpty]
    by_cases hempty : handle = ""
    · rw [if_pos (by simpa using hempty), if_pos hempty]
      exact ⟨[], rfl⟩
    · rw [if_neg (by simpa using hempty), if_neg hempty]
      simp only [hfind]
      exact ⟨[_], rfl⟩
  · rw [step, remove, find?_eq_none_iff.mp hfind]
    rfl

theorem emptied_eq (r : Registry X) : r.emptied = r.renewed.beside r.emptied.opened := by
  have hsteady : r.Steady r.stoppedAll := steady_finishAll r r.listed
  rw [beside, renewed, emptied, hsteady.openedX, hsteady.listedX]
  simp [empty]

theorem shutdown_emptied (r : Registry X) : ∃ note, r.emptied.shutdown = ⟨r.emptied, [.note note], ()⟩ :=
  ⟨_, rfl⟩

end Shutdown

theorem run_shutdown (host : Nat → Parameter → String) (ops : List (Op X)) :
    let r := (empty.run host ops).registry
    let t := r.step host .shutdown
    let former := t.registry.opened
    (∀ s : Registry X, s.step host (.act .stop) = s.step host .shutdown) ∧ r.Shut t ∧
    (∃ note, t.registry.step host .shutdown = ⟨t.registry, [.note note], .done⟩) ∧
    (∀ handle, t.registry.Unknown host handle) ∧
    t.registry = r.renewed.beside former ∧
    ∀ later, t.registry.run host (later.map (.shift former.length)) =
      (r.renewed.run (fun n => host (former.length + n)) later).beside former (List.map (.shift former.length)) := by
  intro r t former
  have hkeeps : r.Keeps (Book.after host ops) := run_keeps host ops
  have ht : t = ⟨r.emptied, r.stopAll.events ++ r.farewell ⟨.debug, "wake lock released", []⟩, .done⟩ :=
    congrArg (Turn.map · fun _ => Answer.done) r.shutdown_eq
  have hnew : t.registry = r.renewed.beside former := by
    simp only [former, ht]
    exact r.emptied_eq
  refine ⟨fun s => rfl, ?_, ?_, ?_, hnew, fun later => ?_⟩
  · rw [ht]
    exact shut_emptied hkeeps.nodup_listed (fun n hn => hkeeps.lt_of_listed hn) _
  · rw [ht]
    obtain ⟨note, hnote⟩ := r.shutdown_emptied
    exact ⟨note, congrArg (Turn.map · fun _ => Answer.done) hnote⟩
  · intro handle
    rw [ht]
    exact unknown_of_nil host rfl handle
  · rw [hnew, run_beside]

end Registry

end TabDeck.Session
