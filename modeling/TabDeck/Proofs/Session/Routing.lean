import TabDeck.Proofs.Session.Book
import TabDeck.Proofs.Session.Receiving

namespace TabDeck.Session

open TabDeck.Log (Record)

variable {X : Type}

namespace Registry

section Operations

variable (r : Registry X) (op : Op X)

def Op.command? (answer : Answer) (handle : String) : Option String :=
  match op, answer with
  | .create p, .session (.ok _) => if p.id = some handle then p.command.map (· ++ "\n") else none
  | _, _ => none

def Op.report? (n : Nat) (handle : String) : Option Int :=
  match op with
  | .setPid other number => if other = handle ∧ n ∈ r.listed then some number else none
  | _ => none

def Op.stops : Op X → Bool
  | .stopAll => true
  | .shutdown => true
  | .act .stop => true
  | _ => false

def Op.tab? : Op X → Option Nat
  | .closeTab tab _ => tab
  | _ => none

def Finishes (n : Nat) : Prop := op.stops = true ∧ n ∈ r.listed ∨ op.tab? = some n ∧ n < r.opened.length

def Op.names? : Option String :=
  match op with
  | .create p => p.id
  | .remove handle => some handle
  | .setPid handle _ => some handle
  | .closeTab tab _ => tab.bind fun n => r.opened[n]?.map Terminal.handle
  | _ => none

end Operations

section Course

variable {host : Nat → Parameter → String} {r : Registry X} {op : Op X} {t : Turn X Answer} {n : Nat}
  {handle : String}

/-- The session with a number is the only one with its handle, now or later. -/
structure Fits (r : Registry X) (n : Nat) (handle : String) : Prop where
  unique : ∀ m s, r.opened[m]? = some s → s.handle = handle → m = n
  kept : ∀ s, r.opened[n]? = some s → s.handle = handle
  listed : n ∈ r.listed → n < r.opened.length

theorem Fits.eq_iff (h : r.Fits n handle) {m : Nat} {other : String} (hm : r.find? other = some m) :
    m = n ↔ other = handle := by
  obtain ⟨-, s, hs, rfl⟩ := find?_mem hm
  refine ⟨?_, h.unique m s hs⟩
  rintro rfl
  exact h.kept s hs

theorem Idle.command? {answer : Answer} (h : r.Idle op answer) : op.command? answer handle = none := by
  cases h with
  | absentX op session hop hs => rcases hop with rfl | rfl <;> rfl
  | held op hop hlock => rcases hop with rfl | rfl <;> rfl
  | free op hop hlock => rcases hop with rfl | rfl <;> rfl
  | _ => rfl

theorem Course.written_eq (hc : Course host r op t) (h : r.Fits n handle) :
    t.events.filterMap (Event.written? n) = (op.command? t.result handle).toList := by
  cases hc with
  | idle op answer events hidle hevents =>
    rw [hidle.command?]
    exact filterMap_silent (fun _ => rfl) rfl hevents
  | opened p hid => simp [Turn.map, openNew, Op.command?, hid, Event.written?, publish, List.filterMap_cons]
  | reused p id m note hid hne hfind hcommand =>
    simp [Op.command?, hcommand, Event.written?, publish, List.filterMap_cons]
  | typed p id m command note hid hne hfind hcommand =>
    have hiff := h.eq_iff hfind
    by_cases hm : m = n
    · simp [Op.command?, hid, hcommand, Event.written?, publish, List.filterMap_cons, hm, hiff.mp hm]
    · have hne : id ≠ handle := fun he => hm (hiff.mpr he)
      simp [Op.command?, hid, Event.written?, publish, List.filterMap_cons, hm, hne]
  | removedX op session i note hop hpos => rcases hop with rfl | rfl <;> rfl
  | stopped note =>
    rw [List.filterMap_append, filterMap_finishAll fun _ _ _ => rfl]
    rfl
  | shut op note note' hop =>
    rw [List.filterMap_append, filterMap_finishAll fun _ _ _ => rfl,
      filterMap_farewell rfl (fun _ => rfl) fun _ => rfl]
    rcases hop with rfl | rfl <;> rfl
  | locked op note hop hlock => rcases hop with rfl | rfl <;> rfl
  | unlocked op note hop hlock => rcases hop with rfl | rfl <;> rfl
  | _ => rfl

theorem Fits.reported? (h : r.Fits n handle) {other : String} (hfind : r.find? other = none) (number : Int) :
    (Op.setPid other number : Op X).report? r n handle = none := by
  apply if_neg
  rintro ⟨rfl, hn⟩
  have hs := List.getElem?_eq_getElem (h.listed hn)
  have hhas : r.hasHandle other n = true := hasHandle_iff.mpr ⟨_, hs, h.kept _ hs⟩
  exact List.find?_eq_none.mp hfind n hn hhas

theorem Course.pids_eq (hc : Course host r op t) (h : r.Fits n handle) :
    t.events.filterMap (Event.pid? n) = (op.report? r n handle).toList := by
  cases hc with
  | idle op answer events hidle hevents =>
    rw [filterMap_silent (fun _ => rfl) rfl hevents]
    cases hidle with
    | unreported other number hfind => rw [h.reported? hfind, Option.toList_none]
    | absentX op session hop hs => rcases hop with rfl | rfl <;> rfl
    | held op hop hlock => rcases hop with rfl | rfl <;> rfl
    | free op hop hlock => rcases hop with rfl | rfl <;> rfl
    | _ => rfl
  | reported other number m note hfind =>
    have hiff := h.eq_iff hfind
    by_cases hm : m = n
    · have hlisted := (find?_mem hfind).1
      rw [hm] at hlisted
      simp [Op.report?, Event.pid?, List.filterMap_cons, hm, hiff.mp hm, hlisted]
    · have hne : other ≠ handle := fun he => hm (hiff.mpr he)
      simp [Op.report?, Event.pid?, List.filterMap_cons, hm, hne]
  | removedX op session i note hop hpos => rcases hop with rfl | rfl <;> rfl
  | stopped note =>
    rw [List.filterMap_append, filterMap_finishAll fun _ _ _ => rfl]
    rfl
  | shut op note note' hop =>
    rw [List.filterMap_append, filterMap_finishAll fun _ _ _ => rfl,
      filterMap_farewell rfl (fun _ => rfl) fun _ => rfl]
    rcases hop with rfl | rfl <;> rfl
  | locked op note hop hlock => rcases hop with rfl | rfl <;> rfl
  | unlocked op note hop hlock => rcases hop with rfl | rfl <;> rfl
  | _ => rfl

theorem Fits.finishes_finishAll (h : r.Fits n handle) {rest : List (Event X)}
    (hrest : rest.any (Event.finishes n) = false) :
    ((r.finishAll r.listed).events ++ rest).any (Event.finishes n) = true ↔ n ∈ r.listed := by
  rw [List.any_append, hrest, Bool.or_false, List.any_eq_true, Registry.finishes_finishAll]
  exact ⟨And.left, fun hn => ⟨hn, h.listed hn⟩⟩

theorem Course.finishes_iff (hc : Course host r op t) (h : r.Fits n handle) :
    t.events.any (Event.finishes n) = true ↔ r.Finishes op n := by
  cases hc with
  | idle op answer events hidle hevents =>
    have hnone : events.any (Event.finishes n) = false := by
      apply List.any_eq_false.mpr
      intro ev hev
      rcases note_or_cleaned (hevents ev hev) with ⟨note, rfl⟩ | rfl <;> exact Bool.false_ne_true
    rw [hnone]
    cases hidle with
    | bare tab registered htab =>
      refine ⟨nofun, ?_⟩
      rintro (⟨hstops, -⟩ | ⟨hsome, hn⟩)
      · cases hstops
      · obtain rfl : tab = some n := hsome
        simp [hn] at htab
    | absentX op session hop hs => rcases hop with rfl | rfl <;> simp [Finishes, Op.stops, Op.tab?]
    | held op hop hlock => rcases hop with rfl | rfl <;> simp [Finishes, Op.stops, Op.tab?]
    | free op hop hlock => rcases hop with rfl | rfl <;> simp [Finishes, Op.stops, Op.tab?]
    | _ => simp [Finishes, Op.stops, Op.tab?]
  | finished m s registered hs hfind =>
    have hm := (List.getElem?_eq_some_iff.mp hs).1
    simp [Event.finishes, Finishes, Op.stops, Op.tab?]
    rintro rfl
    exact hm
  | closed m s i note hs hpos =>
    have hm := (List.getElem?_eq_some_iff.mp hs).1
    simp [Event.finishes, publish, Finishes, Op.stops, Op.tab?]
    rintro rfl
    exact hm
  | removedX op session i note hop hpos =>
    rcases hop with rfl | rfl <;> simp [Finishes, Op.stops, Op.tab?, Event.finishes, publish]
  | stopped note =>
    rw [h.finishes_finishAll rfl]
    simp [Finishes, Op.stops, Op.tab?]
  | shut op note note' hop =>
    have hfarewell : (.note note :: r.farewell note' : List (Event X)).any (Event.finishes n) = false := by
      rw [farewell]
      split_ifs <;> rfl
    rw [h.finishes_finishAll hfarewell]
    rcases hop with rfl | rfl <;> simp [Finishes, Op.stops, Op.tab?]
  | locked op note hop hlock =>
    rcases hop with rfl | rfl <;> simp [Finishes, Op.stops, Op.tab?, Event.finishes, publish]
  | unlocked op note hop hlock =>
    rcases hop with rfl | rfl <;> simp [Finishes, Op.stops, Op.tab?, Event.finishes, publish]
  | _ => simp [Finishes, Op.stops, Op.tab?, Event.finishes, publish, Turn.map, openNew, createX]

theorem Course.called_names {s : Terminal} (hc : Course host r op t) (h : op.names? r = some handle)
    (hs : r.opened[n]? = some s) (hne : s.handle ≠ handle) : n ∉ called t.events := by
  intro hn
  have hfound {m : Nat} (hfind : r.find? handle = some m) : n ≠ m := by
    rintro rfl
    obtain ⟨-, s', hs', hhandle⟩ := find?_mem hfind
    obtain rfl := Option.some.inj (hs'.symm.trans hs)
    exact hne hhandle
  have htab {m : Nat} {registered : Bool} (h : (Op.closeTab (some m) registered : Op X).names? r = some handle) :
      n ≠ m := by
    rintro rfl
    rw [Op.names?, Option.bind_some, hs] at h
    exact hne (Option.some.inj h)
  cases hc with
  | idle op answer events hidle hevents =>
    rw [called_of_silent hevents] at hn
    exact List.not_mem_nil hn
  | typed p id m command note hid hne' hfind hcommand =>
    obtain rfl : id = handle := Option.some.inj (hid.symm.trans h)
    exact hfound hfind (List.mem_singleton.mp hn)
  | reported other number m note hfind =>
    obtain rfl : other = handle := Option.some.inj h
    exact hfound hfind (List.mem_singleton.mp hn)
  | finished m s' registered hs' hfind => exact htab h (List.mem_singleton.mp hn)
  | closed m s' i note hs' hpos => exact htab h (List.mem_singleton.mp hn)
  | stopped note => cases h
  | shut op note note' hop => rcases hop with rfl | rfl <;> cases h
  | _ => exact absurd hn List.not_mem_nil

end Course

section Entries

structure Entry (X : Type) where
  before : Registry X
  op : Op X

variable (host : Nat → Parameter → String)

def Entry.turn (e : Entry X) : Turn X Answer := e.before.step host e.op

def Entry.command? (handle : String) (e : Entry X) : Option String := e.op.command? (e.turn host).result handle

def Entry.report? (n : Nat) (handle : String) (e : Entry X) : Option Int := e.op.report? e.before n handle

def entries (r : Registry X) : List (Op X) → List (Entry X)
  | [] => []
  | op :: ops => ⟨r, op⟩ :: entries (r.step host op).registry ops

variable {host}

theorem run_events (r : Registry X) (ops : List (Op X)) :
    (r.run host ops).events = (entries host r ops).flatMap fun e => (e.turn host).events := by
  induction ops generalizing r with
  | nil => rfl
  | cons op ops ih =>
    rw [run, entries, List.flatMap_cons, ← ih]
    rfl

theorem entry_of_mem {r : Registry X} {ops : List (Op X)} {e : Entry X} (he : e ∈ entries host r ops) :
    ∃ past rest, ops = past ++ e.op :: rest ∧ e.before = (r.run host past).registry := by
  induction ops generalizing r with
  | nil => exact absurd he List.not_mem_nil
  | cons op ops ih =>
    rcases List.mem_cons.mp he with rfl | he
    · exact ⟨[], ops, rfl, rfl⟩
    · obtain ⟨past, rest, hops, hbefore⟩ := ih he
      exact ⟨op :: past, rest, by rw [hops]; rfl, hbefore⟩

theorem entry_course (e : Entry X) : Course host e.before e.op (e.turn host) := step_course host e.before e.op

end Entries

section Routing

variable {host : Nat → Parameter → String}

theorem run_handle (host : Nat → Parameter → String) {r : Registry X} (ops : List (Op X)) {n : Nat} {s : Terminal}
    (hs : r.opened[n]? = some s) :
    ∃ s', (r.run host ops).registry.opened[n]? = some s' ∧ s'.handle = s.handle := by
  induction ops generalizing r s with
  | nil => exact ⟨s, hs, rfl⟩
  | cons op ops ih =>
    obtain ⟨s', hs', hhandle⟩ := ih ((step_course host r op).opened_before hs)
    exact ⟨s', hs', hhandle.trans (receiveAll_handle _)⟩

theorem entry_fits {ops : List (Op X)} (hd : ((empty.run host ops).registry.opened.map Terminal.handle).Nodup)
    {e : Entry X} (he : e ∈ entries host empty ops) {n : Nat} {s : Terminal}
    (hs : (empty.run host ops).registry.opened[n]? = some s) : e.before.Fits n s.handle := by
  obtain ⟨past, rest, hops, hbefore⟩ := entry_of_mem he
  -- handles are kept, so two sessions that shared one would still share it at the end
  have hlater {m : Nat} {t : Terminal} (ht : e.before.opened[m]? = some t) :
      ∃ t', (empty.run host ops).registry.opened[m]? = some t' ∧ t'.handle = t.handle := by
    rw [hbefore] at ht
    obtain ⟨t', ht', hhandle⟩ := run_handle host (e.op :: rest) ht
    rw [hops, run_append]
    exact ⟨t', ht', hhandle⟩
  refine ⟨fun m t ht hhandle => ?_, fun t ht => ?_, fun hn => ?_⟩
  · obtain ⟨t', ht', hkept⟩ := hlater ht
    have hm := List.getElem?_eq_some_iff.mp ht'
    refine (List.getElem?_inj (by simpa using hm.1) hd).mp ?_
    rw [List.getElem?_map, List.getElem?_map, ht', hs, Option.map_some, Option.map_some, hkept, hhandle]
  · obtain ⟨t', ht', hkept⟩ := hlater ht
    rw [← hkept, Option.some.inj (ht'.symm.trans hs)]
  · have hkeeps := run_keeps host past
    rw [hbefore] at hn ⊢
    rw [hkeeps.listed, Roll.mem_present] at hn
    obtain ⟨handle, hhandle⟩ := hn
    rw [hkeeps.length]
    exact (List.getElem?_eq_some_iff.mp hhandle).1

theorem run_filterMap {B : Type} {f : Event X → Option B} {g : Entry X → Option B} {r : Registry X}
    {ops : List (Op X)} (h : ∀ e ∈ entries host r ops, (e.turn host).events.filterMap f = (g e).toList) :
    (r.run host ops).events.filterMap f = (entries host r ops).filterMap g := by
  rw [run_events, List.filterMap_flatMap, List.filterMap_eq_flatMap_toList]
  exact List.flatMap_congr h

theorem any_sessions (r : Registry X) (handle : String) :
    r.sessions.any (fun s => s.handle == handle) = (r.find? handle).isSome := by
  rw [Registry.sessions, List.any_filterMap, Registry.find?, Bool.eq_iff_iff, List.find?_isSome, List.any_eq_true]
  apply exists_congr
  intro n
  rw [hasHandle]
  cases r.opened[n]? <;> rfl

structure Routed (host : Nat → Parameter → String) (es : List (Entry X)) (events : List (Event X)) (n : Nat)
    (s : Terminal) : Prop where
  written : events.filterMap (Event.written? n) = es.filterMap (Entry.command? host s.handle)
  input : s.input = String.join (es.filterMap (Entry.command? host s.handle))
  reported : events.filterMap (Event.pid? n) = es.filterMap (Entry.report? n s.handle)
  pid : s.pid = (es.filterMap (Entry.report? n s.handle)).getLast?
  finished : events.any (Event.finishes n) = true ↔ ∃ e ∈ es, e.before.Finishes e.op n
  running : s.running = false ↔ ∃ e ∈ es, e.before.Finishes e.op n

theorem run_routed (host : Nat → Parameter → String) (ops : List (Op X))
    (hd : ((empty.run host ops).registry.opened.map Terminal.handle).Nodup) :
    let t := empty.run host ops
    let es := entries host empty ops
    (∀ (n : Nat) (s : Terminal), t.registry.opened[n]? = some s → Routed host es t.events n s) ∧
    (∀ e ∈ es, ∀ handle pid, e.op = .setPid handle pid →
      (e.turn host).result = .flag (e.before.sessions.any fun s : Terminal => s.handle == handle)) ∧
    (∀ e ∈ es, ∀ handle, e.op.names? e.before = some handle →
      ∀ (n : Nat) (s : Terminal), e.before.opened[n]? = some s → s.handle ≠ handle →
      (e.turn host).registry.opened[n]? = some s) := by
  intro t es
  refine ⟨?_, ?_, ?_⟩
  · intro n s hs
    have hfits : ∀ e ∈ es, e.before.Fits n s.handle := fun e he => entry_fits hd he hs
    have hwritten : t.events.filterMap (Event.written? n) = es.filterMap (Entry.command? host s.handle) :=
      run_filterMap fun e he => (entry_course e).written_eq (hfits e he)
    have hreported : t.events.filterMap (Event.pid? n) = es.filterMap (Entry.report? n s.handle) :=
      run_filterMap fun e he => (entry_course e).pids_eq (hfits e he)
    have hfinished : t.events.any (Event.finishes n) = true ↔ ∃ e ∈ es, e.before.Finishes e.op n := by
      rw [run_events, List.any_flatMap, List.any_eq_true]
      exact exists_congr fun e => and_congr_right fun he => (entry_course e).finishes_iff (hfits e he)
    have hstate := (run_received host ops).state n s hs
    rw [receiveAll_eq] at hstate
    refine ⟨hwritten, ?_, hreported, ?_, hfinished, ?_⟩
    · rw [← hwritten]
      exact (congrArg Terminal.input hstate).trans String.empty_append
    · rw [← hreported]
      exact (congrArg Terminal.pid hstate).trans Option.or_none
    · have hrunning : s.running = !t.events.any (Event.finishes n) := congrArg Terminal.running hstate
      rw [← hfinished, hrunning, Bool.not_eq_false']
  · rintro e - handle pid hop
    rw [Entry.turn, hop, any_sessions, step, setPid]
    cases e.before.find? handle <;> rfl
  · intro e he handle hnames n s hs hne
    rw [(entry_course e).opened_before hs, receiveAll_of_notMem ((entry_course e).called_names hnames hs hne)]

def pair : List (Op Unit) :=
  [.create .empty, .create .empty, .create { Parameter.empty with id := some "a", command := some "ls" },
    .setPid "b" 7, .create { Parameter.empty with id := some "b", command := some "vi" }, .closeTab (some 0) true,
    .setPid "a" 9, .create { Parameter.empty with id := some "a", command := some "top" }, .shutdown]

theorem run_routed_pair :
    let host (n : Nat) (_ : Parameter) : String := if n = 0 then "a" else "b"
    let t := empty.run host pair
    let es := entries host empty pair
    (t.registry.opened.map Terminal.handle).Nodup ∧
      Routed host es t.events 0 ⟨"a", false, none, "ls\n"⟩ ∧
      Routed host es t.events 1 ⟨"b", false, some 7, "vi\n"⟩ ∧
      es.filterMap (Entry.command? host "a") = ["ls\n"] ∧ es.filterMap (Entry.report? 1 "b") = [7] := by
  intro host t es
  have hd : (t.registry.opened.map Terminal.handle).Nodup := by decide +kernel
  obtain ⟨hrouted, -, -⟩ := run_routed host pair hd
  have hfirst : t.registry.opened[0]? = some ⟨"a", false, none, "ls\n"⟩ := by decide +kernel
  have hsecond : t.registry.opened[1]? = some ⟨"b", false, some 7, "vi\n"⟩ := by decide +kernel
  exact ⟨hd, hrouted 0 _ hfirst, hrouted 1 _ hsecond, by decide +kernel, by decide +kernel⟩

end Routing

end Registry

end TabDeck.Session
