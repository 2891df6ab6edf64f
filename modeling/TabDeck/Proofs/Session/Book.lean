import TabDeck.Proofs.Session.Course
import TabDeck.Proofs.Session.Roll
/-!
A book of all sessions that were ever opened as a reference for registries.
-/
namespace TabDeck.Session

variable {X : Type}

structure Book (X : Type) where
  terminals : Roll String
  displays : Roll X

namespace Book

def empty : Book X := ⟨[], []⟩

def removal (b : Book X) (handle : String) : Book X :=
  (b.terminals.first? handle).elim b fun n => { b with terminals := b.terminals.strike n }

def place? (b : Book X) (handle : String) : Option Nat := (b.terminals.first? handle).bind b.terminals.place?

def handle? (b : Book X) (tab : Option Nat) : Option String := tab.bind fun n => b.terminals[n]?.map Prod.fst

def next (host : Nat → Parameter → String) (b : Book X) : Registry.Op X → Book X
  | .create p => if p.isNew then { b with terminals := b.terminals.enter (host b.terminals.length p) } else b
  | .remove handle => b.removal handle
  | .closeTab tab true => (b.handle? tab).elim b b.removal
  | .createX x => { b with displays := b.displays.enter x }
  | .removeX session => { b with displays := b.displays.strike session }
  | .closeX (some session) true => { b with displays := b.displays.strike session }
  | .shutdown => { b with terminals := b.terminals.strikeAll }
  | .act .stop => { b with terminals := b.terminals.strikeAll }
  | _ => b

def answer (b : Book X) : Registry.Op X → Registry.Answer
  | .create p => .session <|
      match p.id with
      | none => .ok b.terminals.length
      | some id =>
        if id = "" then .error (.argument ⟨"session id must not be empty"⟩)
        else (b.terminals.first? id).elim (.error (.notFound id)) .ok
  | .remove handle => .position (b.place? handle)
  | .setPid handle _ => .flag (b.terminals.first? handle).isSome
  | .closeTab tab true => .position ((b.handle? tab).bind b.place?)
  | .closeTab _ false => .position none
  | .createX _ => .number b.displays.length
  | .removeX session => .position (b.displays.place? session)
  | .closeX session true => .position (session.bind b.displays.place?)
  | .closeX _ false => .position none
  | _ => .done

def after (host : Nat → Parameter → String) (ops : List (Registry.Op X)) : Book X := ops.foldl (next host) empty

inductive Refuses (b : Book X) : Registry.Op X → Prop where
  | nameless (p : Parameter) (hid : p.id = some "") : Refuses b (.create p)
  | unknown (p : Parameter) (id : String) (hid : p.id = some id) (h : b.terminals.first? id = none) :
      Refuses b (.create p)
  | absent (handle : String) (h : b.terminals.first? handle = none) : Refuses b (.remove handle)
  | absentX (op : Registry.Op X) (session : Nat)
      (hop : op = .removeX session ∨ op = .closeX (some session) true) (h : session ∉ b.displays.present) :
      Refuses b op

end Book

def Event.opens : Event X → Bool
  | .opened _ _ => true
  | _ => false

namespace Registry

def Op.onDisplays : Op X → Bool
  | .createX _ => true
  | .removeX _ => true
  | .closeX _ _ => true
  | _ => false

def Answer.fails : Answer → Bool
  | .session (.error _) => true
  | .position none => true
  | _ => false

structure Keeps (r : Registry X) (b : Book X) : Prop where
  opened : r.opened.map Terminal.handle = b.terminals.map Prod.fst
  listed : r.listed = b.terminals.present
  openedX : r.openedX = b.displays.map Prod.fst
  listedX : r.listedX = b.displays.present

section Lookup

variable {r : Registry X} {b : Book X} (h : r.Keeps b)

include h

theorem Keeps.length : r.opened.length = b.terminals.length := by
  simpa using congrArg List.length h.opened

theorem Keeps.lengthX : r.openedX.length = b.displays.length := by
  simpa using congrArg List.length h.openedX

theorem Keeps.handle (n : Nat) : r.opened[n]?.map Terminal.handle = b.terminals[n]?.map Prod.fst := by
  rw [← List.getElem?_map, h.opened, List.getElem?_map]

theorem Keeps.find? (handle : String) : r.find? handle = b.terminals.first? handle := by
  rw [Registry.find?, h.listed]
  apply Roll.find?_present (p := (· == handle))
  intro n e he
  have hn := h.handle n
  rw [he] at hn
  obtain ⟨t, ht, hhandle⟩ := Option.map_eq_some_iff.mp hn
  simp [hasHandle, ht, hhandle]

theorem Keeps.position? (handle : String) : r.position? handle = b.place? handle := by
  rw [Registry.position?, Roll.findIdx?_eq_bind, ← Registry.find?, h.find?, h.listed]
  simp only [Roll.findIdx?_present, Book.place?]

theorem Keeps.positionX? (session : Nat) :
    r.listedX.findIdx? (· == session) = b.displays.place? session := by
  rw [h.listedX, Roll.findIdx?_present]

theorem Keeps.sessions : r.sessions.map Terminal.handle = b.terminals.remaining := by
  rw [Registry.sessions, ← Roll.filterMap_present, ← h.opened, h.listed, List.map_filterMap]
  simp

theorem Keeps.xSessions : r.xSessions = b.displays.remaining := by
  rw [Registry.xSessions, ← Roll.filterMap_present, ← h.openedX, h.listedX]

theorem Keeps.modify {f : Terminal → Terminal} (hf : ∀ t, (f t).handle = t.handle) (session : Nat) :
    (r.modify session f).Keeps b := by
  refine ⟨?_, h.listed, h.openedX, h.listedX⟩
  rw [← h.opened]
  apply List.ext_getElem?
  intro n
  rw [Registry.modify, List.getElem?_map, List.getElem?_modify, List.getElem?_map]
  cases r.opened[n]? with
  | none => rfl
  | some t => by_cases hn : session = n <;> simp [hn, hf]

theorem Keeps.stopping (session : Nat) : (r.stopping session).Keeps b :=
  h.modify (f := fun t => { t with running := false }) (fun _ => rfl) session

theorem Keeps.removal {handle : String} {i : Nat} (hi : b.place? handle = some i) :
    (r.without i).Keeps (b.removal handle) := by
  obtain ⟨n, hfirst, hplace⟩ := Option.bind_eq_some_iff.mp hi
  rw [Book.removal, hfirst]
  refine ⟨?_, ?_, h.openedX, h.listedX⟩
  · exact h.opened.trans (Roll.map_strike _ n).symm
  · rw [without, h.listed]
    exact Roll.eraseIdx_present hplace

theorem Keeps.removalX {session i : Nat} (hi : b.displays.place? session = some i) :
    (r.withoutX i).Keeps { b with displays := b.displays.strike session } := by
  refine ⟨h.opened, h.listed, h.openedX.trans (Roll.map_strike _ session).symm, ?_⟩
  rw [withoutX, h.listedX]
  exact Roll.eraseIdx_present hi

theorem Keeps.strikeX {session : Nat} (hs : session ∉ b.displays.present) :
    r.Keeps { b with displays := b.displays.strike session } := by
  refine ⟨h.opened, h.listed, h.openedX.trans (Roll.map_strike _ session).symm, ?_⟩
  rw [h.listedX, Roll.present_strike, List.filter_eq_self.mpr]
  intro n hn
  have hne : n ≠ session := fun he => hs (he ▸ hn)
  simpa using hne

theorem Keeps.finishAll (sessions : List Nat) : (r.finishAll sessions).registry.Keeps b := by
  induction sessions generalizing r with
  | nil => exact h
  | cons session rest ih =>
    rw [Registry.finishAll]
    apply ih
    rw [finish]
    cases r.opened[session]? with
    | none => exact h
    | some t => exact h.stopping session

theorem Keeps.emptied : r.emptied.Keeps { b with terminals := b.terminals.strikeAll } := by
  have hstopped := h.finishAll r.listed
  refine ⟨hstopped.opened.trans (Roll.map_strikeAll _).symm, ?_, hstopped.openedX, hstopped.listedX⟩
  exact (Roll.present_strikeAll _).symm

theorem Keeps.enter (host : Nat → Parameter → String) (p : Parameter) :
    (r.openNew host p).registry.Keeps { b with terminals := b.terminals.enter (host b.terminals.length p) } := by
  refine ⟨?_, ?_, h.openedX, h.listedX⟩
  · simp [openNew, Roll.enter, h.opened, h.length]
  · rw [Roll.present_enter, ← h.listed, ← h.length]
    rfl

theorem Keeps.enterX (x : X) : (r.createX x).registry.Keeps { b with displays := b.displays.enter x } := by
  refine ⟨h.opened, h.listed, ?_, ?_⟩
  · simp [createX, Roll.enter, h.openedX]
  · rw [Roll.present_enter, ← h.listedX, ← h.lengthX]
    rfl

end Lookup

section Step

variable {host : Nat → Parameter → String} {r : Registry X} {b : Book X}

theorem place?_of_first? {handle : String} (h : b.terminals.first? handle = none) : b.place? handle = none := by
  rw [Book.place?, h]
  rfl

theorem removal_of_first? {handle : String} (h : b.terminals.first? handle = none) : b.removal handle = b := by
  rw [Book.removal, h]
  rfl

theorem place?_of_notMem {session : Nat} (h : session ∉ b.displays.present) : b.displays.place? session = none := by
  rw [← Roll.findIdx?_present, List.findIdx?_eq_none_iff]
  intro n hn
  simpa using fun he : n = session => h (he ▸ hn)

theorem Keeps.handle? (h : r.Keeps b) {n : Nat} {t : Terminal} (ht : r.opened[n]? = some t) :
    b.handle? (some n) = some t.handle := by
  rw [Book.handle?, Option.bind_some, ← h.handle, ht]
  rfl

theorem Keeps.idle (h : r.Keeps b) {op : Op X} {answer : Answer} (hidle : r.Idle op answer) :
    r.Keeps (b.next host op) ∧ answer = b.answer op := by
  cases hidle with
  | nameless p hid => simp [Book.next, Book.answer, Parameter.isNew, hid, h]
  | unknown p id hid hne hfind =>
    rw [h.find?] at hfind
    simp [Book.next, Book.answer, Parameter.isNew, hid, hne, hfind, h]
  | absent handle hfind =>
    rw [h.find?] at hfind
    simp [Book.next, Book.answer, removal_of_first? hfind, place?_of_first? hfind, h]
  | unreported handle pid hfind =>
    rw [h.find?] at hfind
    simp [Book.next, Book.answer, hfind, h]
  | bare tab registered htab =>
    have hhandle : b.handle? tab = none := by
      cases tab with
      | none => rfl
      | some n =>
        rw [Book.handle?, Option.bind_some, ← h.handle]
        simpa using htab
    cases registered <;> simp [Book.next, Book.answer, hhandle, h]
  | absentX op session hop hs =>
    rw [h.listedX] at hs
    have hplace := place?_of_notMem hs
    rcases hop with rfl | rfl <;> exact ⟨h.strikeX hs, congrArg Answer.position hplace.symm⟩
  | apartX session registered hs =>
    rcases hs with rfl | rfl
    · cases registered <;> exact ⟨h, rfl⟩
    · cases session <;> exact ⟨h, rfl⟩
  | held op hop hlock => rcases hop with rfl | rfl <;> exact ⟨h, rfl⟩
  | free op hop hlock => rcases hop with rfl | rfl <;> exact ⟨h, rfl⟩

theorem Keeps.course (h : r.Keeps b) {op : Op X} {t : Turn X Answer} (hc : Course host r op t) :
    t.registry.Keeps (b.next host op) ∧ t.result = b.answer op := by
  have hlocking (held : Bool) : (r.locking held).Keeps b := ⟨h.opened, h.listed, h.openedX, h.listedX⟩
  cases hc with
  | idle op answer events hidle hevents => exact h.idle hidle
  | opened p hid =>
    have hnew : p.isNew = true := by simp [Parameter.isNew, hid]
    rw [Book.next, if_pos hnew]
    refine ⟨h.enter host p, ?_⟩
    rw [Book.answer, hid, ← h.length]
    rfl
  | reused p id n note hid hne hfind hcommand =>
    rw [h.find?] at hfind
    simp [Book.next, Book.answer, Parameter.isNew, hid, hne, hfind, h]
  | typed p id n command note hid hne hfind hcommand =>
    have hmodify := h.modify (f := fun t => { t with input := t.input ++ (command ++ "\n") }) (fun _ => rfl) n
    rw [h.find?] at hfind
    simp [Book.next, Book.answer, Parameter.isNew, hid, hne, hfind, hmodify]
  | removed handle i note hpos =>
    rw [h.position?] at hpos
    exact ⟨h.removal hpos, congrArg Answer.position hpos.symm⟩
  | reported handle pid n note hfind =>
    have hmodify := h.modify (f := fun t => { t with pid := some pid }) (fun _ => rfl) n
    rw [h.find?] at hfind
    exact ⟨hmodify, by simp [Book.answer, hfind]⟩
  | finished n t registered ht hfind =>
    cases registered with
    | false => exact ⟨h.stopping n, rfl⟩
    | true =>
      have hfirst := hfind rfl
      rw [h.find?] at hfirst
      simp [Book.next, Book.answer, h.handle? ht, removal_of_first? hfirst, place?_of_first? hfirst, h.stopping n]
  | closed n t i note ht hpos =>
    rw [h.position?] at hpos
    simp [Book.next, Book.answer, h.handle? ht, hpos, (h.stopping n).removal hpos]
  | openedX x => exact ⟨h.enterX x, congrArg Answer.number h.lengthX⟩
  | removedX op session i note hop hpos =>
    rw [h.positionX?] at hpos
    rcases hop with rfl | rfl <;> exact ⟨h.removalX hpos, congrArg Answer.position hpos.symm⟩
  | stopped note => exact ⟨h.finishAll r.listed, rfl⟩
  | shut op note note' hop => rcases hop with rfl | rfl <;> exact ⟨h.emptied, rfl⟩
  | locked op note hop hlock => rcases hop with rfl | rfl <;> exact ⟨hlocking true, rfl⟩
  | unlocked op note hop hlock => rcases hop with rfl | rfl <;> exact ⟨hlocking false, rfl⟩

theorem Course.shifts {op : Op X} {t : Turn X Answer} {i : Nat} (hc : Course host r op t)
    (hi : t.result = .position (some i)) :
    op.onDisplays = false ∧ t.registry.listed = r.listed.eraseIdx i ∧ t.registry.listedX = r.listedX ∨
      op.onDisplays = true ∧ t.registry.listed = r.listed ∧ t.registry.listedX = r.listedX.eraseIdx i := by
  cases hc with
  | idle op answer events hidle hevents => cases hidle <;> cases hi
  | removed handle j note hpos =>
    cases hi
    exact .inl ⟨rfl, rfl, rfl⟩
  | closed n t j note ht hpos =>
    cases hi
    exact .inl ⟨rfl, rfl, rfl⟩
  | removedX op session j note hop hpos =>
    cases hi
    rcases hop with rfl | rfl <;> exact .inr ⟨rfl, rfl, rfl⟩
  | _ => cases hi

theorem Course.asked {p : Parameter} {id : String} {t : Turn X Answer} (hc : Course host r (.create p) t)
    (hid : p.id = some id) : (∀ ev ∈ t.events, ev.opens = false) ∧ r.Steady t.registry := by
  cases hc with
  | idle op answer events hidle hevents =>
    refine ⟨fun ev hev => ?_, .refl r⟩
    rcases note_or_cleaned (hevents ev hev) with ⟨note, rfl⟩ | rfl <;> rfl
  | opened p hnone =>
    rw [hid] at hnone
    cases hnone
  | reused p id' n note hid' hne hfind hcommand => exact ⟨by simp [Event.opens, publish], .refl r⟩
  | typed p id' n command note hid' hne hfind hcommand =>
    exact ⟨by simp [Event.opens, publish], steady_modify ..⟩
  | removedX op session i note hop hpos => rcases hop with hop | hop <;> cases hop
  | shut op note note' hop => rcases hop with hop | hop <;> cases hop
  | locked op note hop hlock => rcases hop with hop | hop <;> cases hop
  | unlocked op note hop hlock => rcases hop with hop | hop <;> cases hop

theorem refuses_fails {op : Op X} (h : b.Refuses op) : (b.answer op).fails = true := by
  cases h with
  | nameless p hid => simp [Book.answer, hid, Answer.fails]
  | unknown p id hid hfirst => by_cases hne : id = "" <;> simp [Book.answer, hid, hne, hfirst, Answer.fails]
  | absent handle hfirst => simp [Book.answer, place?_of_first? hfirst, Answer.fails]
  | absentX op session hop hs =>
    rcases hop with rfl | rfl <;> simp [Book.answer, place?_of_notMem hs, Answer.fails]

theorem refuses_ne {op : Op X} (h : b.Refuses op) (tab : Option Nat) (registered : Bool) :
    op ≠ .closeTab tab registered := by
  rintro rfl
  cases h with
  | absentX op session hop hs => rcases hop with hop | hop <;> cases hop

theorem Course.refused {op : Op X} {t : Turn X Answer} (hc : Course host r op t)
    (hop : ∀ tab registered, op ≠ .closeTab tab registered) (hfails : t.result.fails = true) :
    t.registry = r ∧ ∀ ev ∈ t.events, ev.isCall = false := by
  cases hc with
  | idle op answer events hidle hevents => exact ⟨rfl, hevents⟩
  | finished n t registered ht hfind => exact absurd rfl (hop _ _)
  | _ => cases hfails

end Step

theorem run_keeps (host : Nat → Parameter → String) (ops : List (Op X)) :
    (empty.run host ops).registry.Keeps (Book.after host ops) := by
  induction ops using List.reverseRecOn with
  | nil => exact ⟨rfl, rfl, rfl, rfl⟩
  | append_singleton ops op ih =>
    rw [run_concat, Book.after, List.foldl_concat]
    exact (ih.course (step_course host _ op)).1

theorem run_book (host : Nat → Parameter → String) (ops : List (Op X)) (op : Op X) :
    let r := (empty.run host ops).registry
    let b := Book.after host ops
    let t := r.step host op
    (r.listed = b.terminals.present ∧ r.sessions.map Terminal.handle = b.terminals.remaining ∧
      r.listedX = b.displays.present ∧ r.xSessions = b.displays.remaining) ∧
    t.result = b.answer op ∧
    (∀ i, t.result = .position (some i) →
      op.onDisplays = false ∧ t.registry.listed = r.listed.eraseIdx i ∧ t.registry.listedX = r.listedX ∨
      op.onDisplays = true ∧ t.registry.listed = r.listed ∧ t.registry.listedX = r.listedX.eraseIdx i) ∧
    (∀ p id, op = .create p → p.id = some id →
      (∀ ev ∈ t.events, ev.opens = false) ∧ t.registry.listed = r.listed ∧ t.registry.listedX = r.listedX) ∧
    (b.Refuses op → t.registry = r ∧ ∀ ev ∈ t.events, ev.isCall = false) := by
  intro r b t
  have h : r.Keeps b := run_keeps host ops
  have hc : Course host r op t := step_course host r op
  have hresult : t.result = b.answer op := (h.course hc).2
  refine ⟨⟨h.listed, h.sessions, h.listedX, h.xSessions⟩, hresult, fun i hi => hc.shifts hi, ?_, ?_⟩
  · rintro p id rfl hid
    obtain ⟨hopens, hsteady⟩ := hc.asked hid
    exact ⟨hopens, hsteady.listed, hsteady.listedX⟩
  · intro hrefuses
    exact hc.refused (refuses_ne hrefuses) (hresult ▸ refuses_fails hrefuses)

end Registry

end TabDeck.Session
