import TabDeck.Proofs.Session.Step

namespace TabDeck.Session

open TabDeck.Log (Record)

variable {X : Type}

def Event.isCall : Event X → Bool
  | .note _ => false
  | .cleaned => false
  | _ => true

theorem note_or_cleaned {ev : Event X} (h : ev.isCall = false) : (∃ note, ev = .note note) ∨ ev = .cleaned := by
  cases ev with
  | note note => exact .inl ⟨note, rfl⟩
  | cleaned => exact .inr rfl
  | _ => cases h

theorem filterMap_silent {B : Type} {f : Event X → Option B} {events : List (Event X)}
    (hnote : ∀ note, f (.note note) = none) (hcleaned : f .cleaned = none)
    (h : ∀ ev ∈ events, ev.isCall = false) : events.filterMap f = [] := by
  apply List.filterMap_eq_nil_iff.mpr
  intro ev hev
  rcases note_or_cleaned (h ev hev) with ⟨note, rfl⟩ | rfl
  · exact hnote note
  · exact hcleaned

namespace Registry

section Lookup

variable {r : Registry X} {handle : String} {i n : Nat}

theorem hasHandle_iff : r.hasHandle handle n = true ↔ ∃ t, r.opened[n]? = some t ∧ t.handle = handle := by
  simp [hasHandle, Option.any_eq_true]

theorem find?_eq_none_iff : r.find? handle = none ↔ r.position? handle = none := by
  simp [find?, position?, List.findIdx?_eq_none_iff]

theorem find?_mem (h : r.find? handle = some n) :
    n ∈ r.listed ∧ ∃ t, r.opened[n]? = some t ∧ t.handle = handle :=
  ⟨List.mem_of_find?_eq_some h, hasHandle_iff.mp (List.find?_some h)⟩

end Lookup

section Courses

variable (host : Nat → Parameter → String) (r : Registry X)

def stopping (session : Nat) : Registry X := r.modify session fun t => { t with running := false }

def without (i : Nat) : Registry X := { r with listed := r.listed.eraseIdx i }

def withoutX (i : Nat) : Registry X := { r with listedX := r.listedX.eraseIdx i }

def locking (held : Bool) : Registry X := { r with lockHeld := held }

def stoppedAll : Registry X := (r.finishAll r.listed).registry

def emptied : Registry X := { r.stoppedAll with listed := [], lockHeld := false }

def farewell (note : Record) : List (Event X) :=
  if r.lockHeld then [.unlocked, .note note, r.emptied.publish]
  else if r.listed.isEmpty then [] else [r.emptied.publish]

inductive Idle : Op X → Answer → Prop where
  | nameless (p : Parameter) (hid : p.id = some "") :
      Idle (.create p) (.session (.error (.argument ⟨"session id must not be empty"⟩)))
  | unknown (p : Parameter) (id : String) (hid : p.id = some id) (hne : id ≠ "") (h : r.find? id = none) :
      Idle (.create p) (.session (.error (.notFound id)))
  | absent (handle : String) (h : r.find? handle = none) : Idle (.remove handle) (.position none)
  | unreported (handle : String) (pid : Int) (h : r.find? handle = none) :
      Idle (.setPid handle pid) (.flag false)
  | bare (tab : Option Nat) (registered : Bool) (h : tab.bind (r.opened[·]?) = none) :
      Idle (.closeTab tab registered) (.position none)
  | absentX (op : Op X) (session : Nat) (hop : op = .removeX session ∨ op = .closeX (some session) true)
      (h : session ∉ r.listedX) : Idle op (.position none)
  | apartX (session : Option Nat) (registered : Bool) (h : session = none ∨ registered = false) :
      Idle (.closeX session registered) (.position none)
  | held (op : Op X) (hop : op = .acquireLock ∨ op = .act .acquireLock) (h : r.lockHeld = true) : Idle op .done
  | free (op : Op X) (hop : op = .releaseLock ∨ op = .act .releaseLock) (h : r.lockHeld = false) : Idle op .done

inductive Course : Op X → Turn X Answer → Prop where
  | idle (op : Op X) (answer : Answer) (events : List (Event X)) (h : r.Idle op answer)
      (hevents : ∀ ev ∈ events, ev.isCall = false) : Course op ⟨r, events, answer⟩
  | opened (p : Parameter) (hid : p.id = none) :
      Course (.create p) ((r.openNew host p).map fun n => .session (.ok n))
  | reused (p : Parameter) (id : String) (n : Nat) (note : Record) (hid : p.id = some id) (hne : id ≠ "")
      (h : r.find? id = some n) (hcommand : p.command = none) :
      Course (.create p) ⟨r, [.note note, r.publish], .session (.ok n)⟩
  | typed (p : Parameter) (id : String) (n : Nat) (command : String) (note : Record) (hid : p.id = some id)
      (hne : id ≠ "") (h : r.find? id = some n) (hcommand : p.command = some command) :
      Course (.create p)
        ⟨r.modify n fun t => { t with input := t.input ++ (command ++ "\n") },
          [.note note, .typed n id (command ++ "\n"), r.publish], .session (.ok n)⟩
  | removed (handle : String) (i : Nat) (note : Record) (h : r.position? handle = some i) :
      Course (.remove handle) ⟨r.without i, [.note note, (r.without i).publish], .position (some i)⟩
  | reported (handle : String) (pid : Int) (n : Nat) (note : Record) (h : r.find? handle = some n) :
      Course (.setPid handle pid)
        ⟨r.modify n fun t => { t with pid := some pid }, [.pid n handle pid, .note note], .flag true⟩
  | finished (n : Nat) (t : Terminal) (registered : Bool) (ht : r.opened[n]? = some t)
      (h : registered = true → r.find? t.handle = none) :
      Course (.closeTab (some n) registered)
        ⟨r.stopping n, [.finished n t.handle t.running, .cleaned], .position none⟩
  | closed (n : Nat) (t : Terminal) (i : Nat) (note : Record) (ht : r.opened[n]? = some t)
      (h : r.position? t.handle = some i) :
      Course (.closeTab (some n) true)
        ⟨(r.stopping n).without i,
          [.finished n t.handle t.running, .note note, ((r.stopping n).without i).publish, .cleaned],
          .position (some i)⟩
  | openedX (x : X) : Course (.createX x) ((r.createX x).map .number)
  | removedX (op : Op X) (session i : Nat) (note : Record)
      (hop : op = .removeX session ∨ op = .closeX (some session) true)
      (h : r.listedX.findIdx? (· == session) = some i) :
      Course op ⟨r.withoutX i, [.note note, (r.withoutX i).publish], .position (some i)⟩
  | stopped (note : Record) :
      Course .stopAll ⟨r.stoppedAll, (r.finishAll r.listed).events ++ [.note note], .done⟩
  | shut (op : Op X) (note note' : Record) (hop : op = .shutdown ∨ op = .act .stop) :
      Course op ⟨r.emptied, (r.finishAll r.listed).events ++ .note note :: r.farewell note', .done⟩
  | locked (op : Op X) (note : Record) (hop : op = .acquireLock ∨ op = .act .acquireLock)
      (h : r.lockHeld = false) :
      Course op ⟨r.locking true, [.locked, .note note, (r.locking true).publish], .done⟩
  | unlocked (op : Op X) (note : Record) (hop : op = .releaseLock ∨ op = .act .releaseLock)
      (h : r.lockHeld = true) :
      Course op ⟨r.locking false, [.unlocked, .note note, (r.locking false).publish], .done⟩

end Courses

section Events

variable {r : Registry X} {B : Type} {f : Event X → Option B}

theorem length_finish (session : Nat) : (r.finish session).registry.opened.length = r.opened.length := by
  rw [finish]
  cases r.opened[session]? with
  | none => rfl
  | some t => exact List.length_modify ..

theorem length_finishAll (sessions : List Nat) :
    (r.finishAll sessions).registry.opened.length = r.opened.length := by
  induction sessions generalizing r with
  | nil => rfl
  | cons session rest ih => exact (ih (r := (r.finish session).registry)).trans (length_finish session)

theorem mem_finish {session : Nat} {ev : Event X} (h : ev ∈ (r.finish session).events) :
    session < r.opened.length ∧ ∃ handle wasRunning, ev = .finished session handle wasRunning := by
  rw [finish] at h
  cases ht : r.opened[session]? with
  | none => simp [ht] at h
  | some t =>
    rw [ht] at h
    exact ⟨(List.getElem?_eq_some_iff.mp ht).1, t.handle, t.running, List.mem_singleton.mp h⟩

theorem mem_finishAll {sessions : List Nat} {ev : Event X} (h : ev ∈ (r.finishAll sessions).events) :
    ∃ session ∈ sessions, session < r.opened.length ∧
      ∃ handle wasRunning, ev = .finished session handle wasRunning := by
  induction sessions generalizing r with
  | nil => exact absurd h List.not_mem_nil
  | cons session rest ih =>
    rcases List.mem_append.mp h with h | h
    · exact ⟨session, List.mem_cons_self, mem_finish h⟩
    · obtain ⟨other, hother, hlt, hev⟩ := ih h
      exact ⟨other, List.mem_cons_of_mem _ hother, length_finish (r := r) session ▸ hlt, hev⟩

theorem filterMap_finishAll (hf : ∀ session other wasRunning, f (.finished session other wasRunning) = none)
    (sessions : List Nat) : (r.finishAll sessions).events.filterMap f = [] := by
  apply List.filterMap_eq_nil_iff.mpr
  intro ev hev
  obtain ⟨session, -, -, other, wasRunning, rfl⟩ := mem_finishAll hev
  exact hf session other wasRunning

theorem filterMap_farewell (hunlocked : f .unlocked = none) (hnote : ∀ note, f (.note note) = none)
    (hpublished : ∀ status, f (.published status) = none) (note note' : Record) :
    (.note note :: r.farewell note' : List (Event X)).filterMap f = [] := by
  rw [farewell]
  cases r.lockHeld with
  | true => simp [publish, hunlocked, hnote, hpublished]
  | false => cases r.listed <;> simp [publish, hnote, hpublished]

end Events

section Inversion

variable {host : Nat → Parameter → String} {r : Registry X}

theorem position?_stopping (session : Nat) (handle : String) :
    (r.stopping session).position? handle = r.position? handle := by
  have hhandle : (r.stopping session).hasHandle handle = r.hasHandle handle := by
    funext n
    rw [hasHandle, stopping, modify, List.getElem?_modify, hasHandle]
    cases r.opened[n]? with
    | none => rfl
    | some t => by_cases hn : session = n <;> simp [hn]
  rw [position?, hhandle]
  rfl

theorem idle_notes {op : Op X} {answer : Answer} (h : r.Idle op answer) (notes : List Record) :
    Course host r op ⟨r, notes.map .note, answer⟩ := by
  refine .idle op answer _ h fun ev hev => ?_
  obtain ⟨note, -, rfl⟩ := List.mem_map.mp hev
  rfl

theorem course_reuse {p : Parameter} {id : String} (hid : p.id = some id) :
    Course host r (.create p) ((r.reuse p id).map .session) := by
  rw [reuse, Check.notEmpty]
  by_cases hne : id = ""
  · subst hne
    exact idle_notes (.nameless p hid) []
  · rw [if_neg (by simpa using hne)]
    simp only
    cases h : r.find? id with
    | none => exact idle_notes (.unknown p id hid hne h) [_]
    | some n =>
      cases hcommand : p.command with
      | none => exact .reused p id n _ hid hne h hcommand
      | some command => exact .typed p id n command _ hid hne h hcommand

theorem course_remove (handle : String) : Course host r (.remove handle) ((r.remove handle).map .position) := by
  rw [remove]
  cases h : r.position? handle with
  | none => exact idle_notes (.absent handle (find?_eq_none_iff.mpr h)) []
  | some i => exact .removed handle i _ h

theorem course_setPid (handle : String) (pid : Int) :
    Course host r (.setPid handle pid) ((r.setPid handle pid).map .flag) := by
  rw [setPid]
  cases h : r.find? handle with
  | none => exact idle_notes (.unreported handle pid h) [_]
  | some n => exact .reported handle pid n _ h

theorem course_closeTab (tab : Option Nat) (registered : Bool) :
    Course host r (.closeTab tab registered) ((r.closeTab tab registered).map .position) := by
  have hbare (h : tab.bind (r.opened[·]?) = none) :
      Course host r (.closeTab tab registered) ⟨r, [.cleaned], .position none⟩ := by
    refine .idle _ _ _ (.bare tab registered h) fun ev hev => ?_
    obtain rfl := List.mem_singleton.mp hev
    rfl
  rw [closeTab]
  cases tab with
  | none => exact hbare rfl
  | some n =>
    rw [Option.bind_some]
    cases ht : r.opened[n]? with
    | none => exact hbare ht
    | some t =>
      have hfinish : r.finish n = ⟨r.stopping n, [.finished n t.handle t.running], ()⟩ := by
        rw [finish, ht]
        rfl
      simp only [Option.map_some, hfinish]
      cases registered with
      | false => exact .finished n t false ht fun hfalse => absurd hfalse Bool.false_ne_true
      | true =>
        rw [if_pos rfl, remove, position?_stopping]
        cases h : r.position? t.handle with
        | none => exact .finished n t true ht fun _ => find?_eq_none_iff.mpr h
        | some i => exact .closed n t i _ ht h

theorem course_removeX {op : Op X} {session : Nat}
    (hop : op = .removeX session ∨ op = .closeX (some session) true) :
    Course host r op ((r.removeX session).map .position) := by
  rw [removeX]
  cases h : r.listedX.findIdx? (· == session) with
  | none =>
    refine idle_notes (.absentX op session hop fun hmem => ?_) []
    simpa using List.findIdx?_eq_none_iff.mp h session hmem
  | some i => exact .removedX op session i _ hop h

theorem shutdown_eq : r.shutdown =
    ⟨r.emptied, r.stopAll.events ++ r.farewell ⟨.debug, "wake lock released", []⟩, ()⟩ := by
  have hlock : ({ r.stopAll.registry with listed := [] } : Registry X).lockHeld = r.lockHeld :=
    (steady_stopAll r).lockHeld
  rw [shutdown, farewell]
  by_cases h : r.lockHeld = true
  · rw [if_pos h, if_pos h, releaseLock, if_pos (hlock.trans h)]
    rfl
  · have hemptied : { r.stopAll.registry with listed := [] } = r.emptied := by
      rw [emptied, ← (Bool.not_eq_true _).mp h, ← hlock]
      rfl
    rw [if_neg h, if_neg h, hemptied]

theorem course_shutdown {op : Op X} (hop : op = .shutdown ∨ op = .act .stop) :
    Course host r op (r.shutdown.map fun _ => .done) := by
  rw [shutdown_eq, stopAll, List.append_assoc]
  exact .shut op _ _ hop

theorem course_acquireLock {op : Op X} (hop : op = .acquireLock ∨ op = .act .acquireLock) :
    Course host r op (r.acquireLock.map fun _ => .done) := by
  rw [acquireLock]
  by_cases h : r.lockHeld = true
  · rw [if_pos h]
    exact idle_notes (.held op hop h) []
  · rw [if_neg h]
    exact .locked op _ hop (by simpa using h)

theorem course_releaseLock {op : Op X} (hop : op = .releaseLock ∨ op = .act .releaseLock) :
    Course host r op (r.releaseLock.map fun _ => .done) := by
  rw [releaseLock]
  by_cases h : r.lockHeld = true
  · rw [if_pos h]
    exact .unlocked op _ hop h
  · rw [if_neg h]
    exact idle_notes (.free op hop (by simpa using h)) []

theorem step_course (host : Nat → Parameter → String) (r : Registry X) (op : Op X) :
    Course host r op (r.step host op) := by
  cases op with
  | create p =>
    rw [step, create]
    cases hid : p.id with
    | none => exact .opened p hid
    | some id => exact course_reuse hid
  | remove handle => exact course_remove handle
  | setPid handle pid => exact course_setPid handle pid
  | closeTab tab registered => exact course_closeTab tab registered
  | createX x => exact .openedX x
  | removeX session => exact course_removeX (.inl rfl)
  | closeX session registered =>
    match session, registered with
    | none, _ => exact idle_notes (.apartX none _ (.inl rfl)) []
    | some session, false => exact idle_notes (.apartX (some session) false (.inr rfl)) []
    | some session, true => exact course_removeX (.inr rfl)
  | stopAll => exact .stopped _
  | shutdown => exact course_shutdown (.inl rfl)
  | acquireLock => exact course_acquireLock (.inl rfl)
  | releaseLock => exact course_releaseLock (.inl rfl)
  | act a =>
    cases a with
    | stop => exact course_shutdown (.inr rfl)
    | acquireLock => exact course_acquireLock (.inr rfl)
    | releaseLock => exact course_releaseLock (.inr rfl)

end Inversion

end Registry

end TabDeck.Session
