import TabDeck.Proofs.Session.Receiving

namespace TabDeck.Session

open TabDeck.Log (Record)

variable {X : Type}

def Event.cleans : Event X → Bool
  | .cleaned => true
  | _ => false

namespace Registry

section Distinct

theorem eraseIdx_eq_filter {α : Type} {p : α → Bool} {l : List α}
    (hd : l.Pairwise fun a b => p a = true → p b = false) {i : Nat} (h : l.findIdx? p = some i) :
    l.eraseIdx i = l.filter fun a => !p a := by
  induction l generalizing i with
  | nil => cases h
  | cons a l ih =>
    obtain ⟨hfirst, hd⟩ := List.pairwise_cons.mp hd
    rw [List.findIdx?_cons] at h
    cases ha : p a with
    | true =>
      rw [ha, if_pos rfl] at h
      obtain rfl := Option.some.inj h
      have hrest : l.filter (fun b => !p b) = l := by
        apply List.filter_eq_self.mpr
        intro b hb
        rw [hfirst b hb ha]
        rfl
      simp [ha, hrest]
    | false =>
      rw [ha, if_neg Bool.false_ne_true] at h
      obtain ⟨j, hj, rfl⟩ := Option.map_eq_some_iff.mp h
      simp [ha, ih hd hj]

variable {r : Registry X} {handle : String}

theorem handles_eq (r : Registry X) :
    r.sessions.map Terminal.handle = r.listed.filterMap fun n => r.opened[n]?.map Terminal.handle := by
  rw [sessions, List.map_filterMap]

theorem map_handle_iff {n : Nat} : r.opened[n]?.map Terminal.handle = some handle ↔ r.hasHandle handle n = true := by
  rw [hasHandle_iff, Option.map_eq_some_iff]

theorem pairwise_hasHandle (hd : (r.sessions.map Terminal.handle).Nodup) (handle : String) :
    r.listed.Pairwise fun m n => r.hasHandle handle m = true → r.hasHandle handle n = false := by
  rw [handles_eq, List.Nodup, List.pairwise_filterMap] at hd
  refine hd.imp fun {m n} hne hm => Bool.eq_false_iff.mpr fun hn => ?_
  exact hne handle (map_handle_iff.mpr hm) handle (map_handle_iff.mpr hn) rfl

theorem position?_eq_none_iff : r.position? handle = none ↔ handle ∉ r.sessions.map Terminal.handle := by
  rw [handles_eq, List.mem_filterMap, position?, List.findIdx?_eq_none_iff]
  simp only [map_handle_iff, not_exists, not_and, Bool.not_eq_true]

theorem position?_of_hasHandle (hd : (r.sessions.map Terminal.handle).Nodup) {i m : Nat} (hi : r.listed[i]? = some m)
    (hm : r.hasHandle handle m = true) : r.position? handle = some i := by
  obtain ⟨hlt, rfl⟩ := List.getElem?_eq_some_iff.mp hi
  refine List.findIdx?_eq_some_iff_getElem.mpr ⟨hlt, hm, fun j hj hhandle => ?_⟩
  have hfirst := List.pairwise_iff_getElem.mp (pairwise_hasHandle hd handle) j i (Nat.lt_trans hj hlt) hlt hj hhandle
  exact Bool.false_ne_true (hfirst.symm.trans hm)

end Distinct

section Tabs

structure Closed (r : Registry X) (n : Nat) (s : Terminal) (registered : Bool) (t : Turn X Answer) : Prop where
  finished : ∃ later, t.events = .finished n s.handle s.running :: later ∧ called later = []
  apart : (registered = true → s.handle ∉ r.sessions.map Terminal.handle) →
    t = ⟨r.stopping n, [.finished n s.handle s.running, .cleaned], .position none⟩
  listed : registered = true → ∀ i m, r.listed[i]? = some m → r.hasHandle s.handle m = true →
    (∃ note, t = ⟨(r.stopping n).without i,
      [.finished n s.handle s.running, .note note, t.registry.publish, .cleaned], .position (some i)⟩) ∧
    t.registry.listed = r.listed.filter fun m => !r.hasHandle s.handle m

structure ClosedX (r : Registry X) (session : Option Nat) (registered : Bool) (t : Turn X Answer) : Prop where
  apart : (registered = true → ∀ n ∈ session, n ∉ r.listedX) → t = ⟨r, [], .position none⟩
  listed : registered = true → ∀ n ∈ session, ∀ i, r.listedX.idxOf? n = some i →
    (∃ note, t = ⟨r.withoutX i, [.note note, t.registry.publish], .position (some i)⟩) ∧
    t.registry.listedX = r.listedX.erase n

variable {r : Registry X} {n : Nat} {s : Terminal}

theorem closeTab_bare {tab : Option Nat} (h : tab.bind (r.opened[·]?) = none) (registered : Bool) :
    r.closeTab tab registered = ⟨r, [.cleaned], none⟩ := by
  rw [closeTab]
  cases tab with
  | none => rfl
  | some n =>
    rw [Option.bind_some] at h ⊢
    rw [h]
    rfl

theorem finish_eq (hs : r.opened[n]? = some s) :
    r.finish n = ⟨r.stopping n, [.finished n s.handle s.running], ()⟩ := by
  rw [finish, hs]
  rfl

theorem closeTab_apart (hs : r.opened[n]? = some s) {registered : Bool}
    (h : registered = true → r.position? s.handle = none) :
    r.closeTab (some n) registered = ⟨r.stopping n, [.finished n s.handle s.running, .cleaned], none⟩ := by
  rw [closeTab, Option.bind_some, hs]
  simp only [Option.map_some, finish_eq hs]
  cases registered with
  | false => rfl
  | true =>
    rw [if_pos rfl, remove, position?_stopping, h rfl]
    rfl

theorem closeTab_listed (hs : r.opened[n]? = some s) {i : Nat} (h : r.position? s.handle = some i) :
    ∃ note, r.closeTab (some n) true = ⟨(r.stopping n).without i,
      [.finished n s.handle s.running, .note note, ((r.stopping n).without i).publish, .cleaned], some i⟩ := by
  rw [closeTab, Option.bind_some, hs]
  simp only [Option.map_some, finish_eq hs, if_true, remove, position?_stopping, h]
  exact ⟨_, rfl⟩

theorem closeTab_or (hs : r.opened[n]? = some s) (registered : Bool) :
    r.closeTab (some n) registered = ⟨r.stopping n, [.finished n s.handle s.running, .cleaned], none⟩ ∨
    ∃ i note, r.closeTab (some n) registered = ⟨(r.stopping n).without i,
      [.finished n s.handle s.running, .note note, ((r.stopping n).without i).publish, .cleaned], some i⟩ := by
  cases registered with
  | false => exact .inl (closeTab_apart hs fun hfalse => absurd hfalse Bool.false_ne_true)
  | true =>
    cases h : r.position? s.handle with
    | none => exact .inl (closeTab_apart hs fun _ => h)
    | some i => exact .inr ⟨i, closeTab_listed hs h⟩

theorem cleaned_last (host : Nat → Parameter → String) (r : Registry X) (tab : Option Nat) (registered : Bool) :
    ∃ earlier, (r.step host (.closeTab tab registered)).events = earlier ++ [.cleaned] ∧
      ∀ ev ∈ earlier, ev.cleans = false := by
  rw [step, Turn.map]
  cases h : tab.bind (r.opened[·]?) with
  | none =>
    rw [closeTab_bare h]
    exact ⟨[], rfl, fun ev hev => absurd hev List.not_mem_nil⟩
  | some s =>
    obtain ⟨n, rfl, hs⟩ := Option.bind_eq_some_iff.mp h
    rcases closeTab_or hs registered with ht | ⟨i, note, ht⟩
    · rw [ht]
      exact ⟨[.finished n s.handle s.running], rfl, by simp [Event.cleans]⟩
    · rw [ht]
      exact ⟨[.finished n s.handle s.running, .note note, ((r.stopping n).without i).publish], rfl,
        by simp [Event.cleans, publish]⟩

theorem closed_of_distinct (host : Nat → Parameter → String) {registered : Bool}
    (hd : registered = true → (r.sessions.map Terminal.handle).Nodup) (hs : r.opened[n]? = some s) :
    r.Closed n s registered (r.step host (.closeTab (some n) registered)) := by
  refine ⟨?_, fun h => ?_, fun hregistered i m hi hm => ?_⟩
  · rw [step]
    rcases closeTab_or hs registered with h | ⟨i, note, h⟩ <;> rw [h] <;> exact ⟨_, rfl, rfl⟩
  · have hposition := fun hregistered => position?_eq_none_iff.mpr (h hregistered)
    exact congrArg (Turn.map · Answer.position) (closeTab_apart hs hposition)
  · have hdistinct := hd hregistered
    have hposition := position?_of_hasHandle hdistinct hi hm
    obtain ⟨note, hnote⟩ := closeTab_listed hs hposition
    subst hregistered
    rw [step, hnote]
    exact ⟨⟨note, rfl⟩, eraseIdx_eq_filter (pairwise_hasHandle hdistinct s.handle) hposition⟩

theorem closedX (host : Nat → Parameter → String) (r : Registry X) (session : Option Nat) (registered : Bool) :
    r.ClosedX session registered (r.step host (.closeX session registered)) := by
  refine ⟨fun h => ?_, ?_⟩
  · match session, registered with
    | none, _ => rfl
    | some n, false => rfl
    | some n, true =>
      have hnone : r.listedX.idxOf? n = none := List.idxOf?_eq_none_iff.mpr (h rfl n rfl)
      rw [step, closeX, if_pos rfl, removeX, ← List.idxOf?, hnone]
      rfl
  · rintro rfl n rfl i hi
    rw [step, closeX, if_pos rfl, removeX, ← List.idxOf?, hi]
    refine ⟨⟨_, rfl⟩, ?_⟩
    rw [List.erase_eq_eraseIdx, hi]
    rfl

end Tabs

theorem step_closing (host : Nat → Parameter → String) (r : Registry X) (tab : Option Nat) (registered : Bool)
    (hd : registered = true → (r.sessions.map Terminal.handle).Nodup) :
    let t := r.step host (.closeTab tab registered)
    (∃ earlier, t.events = earlier ++ [.cleaned] ∧ ∀ ev ∈ earlier, ev.cleans = false) ∧
    (tab.bind (r.opened[·]?) = none → t = ⟨r, [.cleaned], .position none⟩) ∧
    (∀ n s, tab = some n → r.opened[n]? = some s → r.Closed n s registered t) ∧
    ∀ session : Option Nat, r.ClosedX session registered (r.step host (.closeX session registered)) := by
  intro t
  refine ⟨cleaned_last host r tab registered, fun h => ?_, ?_, fun session => closedX host r session registered⟩
  · exact congrArg (Turn.map · Answer.position) (closeTab_bare h registered)
  · rintro n s rfl hs
    exact closed_of_distinct host hd hs

theorem step_closing_reused :
    let host (_ : Nat) (_ : Parameter) : String := "c"
    let opened : List Terminal := [⟨"b", true, none, ""⟩, ⟨"a", true, none, ""⟩, ⟨"b", true, none, ""⟩]
    let r : Registry Unit := ⟨opened, [1, 2], [()], [0], false⟩
    let t := r.step host (.closeTab (some 0) true)
    (r.sessions.map Terminal.handle).Nodup ∧ r.opened[0]? = some ⟨"b", true, none, ""⟩ ∧
      r.listed[1]? = some 2 ∧ r.hasHandle "b" 2 = true ∧
      (∃ note, t = ⟨(r.stopping 0).without 1,
        [.finished 0 "b" true, .note note, .published ⟨1, 1, false⟩, .cleaned], .position (some 1)⟩) ∧
      t.registry.listed = [1] := by
  intro host opened r t
  have hd : (r.sessions.map Terminal.handle).Nodup := by decide +kernel
  obtain ⟨-, -, hclosed, -⟩ := step_closing host r (some 0) true fun _ => hd
  obtain ⟨hturn, hlisted⟩ := (hclosed 0 ⟨"b", true, none, ""⟩ rfl rfl).listed rfl 1 2 rfl (by decide +kernel)
  exact ⟨hd, rfl, rfl, by decide +kernel, hturn, hlisted⟩

end Registry

end TabDeck.Session
