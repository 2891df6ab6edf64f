import Mathlib.Data.List.Nodup
import Mathlib.Data.List.Perm.Subperm
import Mathlib.Logic.Function.Basic
import TabDeck.Proofs.Task.Moves
/-!
Ledgers of pools: who took and finished which job.
-/
namespace TabDeck.Task

open Function (update)

structure Ticket (α : Type) where
  number : Nat
  job : Job α

structure Ledger (α : Type) where
  pool : Pool α
  submitted : List (Ticket α)
  queued : List (Ticket α)
  held : Nat → Option (Ticket α)
  taken : List (Ticket α × Nat)
  finished : List (Ticket α × Nat)

variable {α : Type}

namespace Ledger

def note (l : Ledger α) : Pool.Move α → Ledger α
  | .submit job =>
    let t : Ticket α := ⟨l.submitted.length, job⟩
    { l with submitted := l.submitted ++ [t], queued := l.queued ++ [t] }
  | .take w =>
    match l.queued with
    | [] => l
    | t :: rest => { l with queued := rest, held := update l.held w (some t), taken := l.taken ++ [(t, w)] }
  | .finish w =>
    match l.held w with
    | none => l
    | some t => { l with held := update l.held w none, finished := l.finished ++ [(t, w)] }
  | .close => l
  | .exit _ => l

def next (l : Ledger α) (m : Pool.Move α) : Ledger α :=
  { (if l.pool.possible m then l.note m else l) with pool := l.pool.step m }

def ofPool (p : Pool α) : Ledger α := ⟨p, [], [], fun _ => none, [], []⟩

def holders (l : Ledger α) : List (Ticket α) := (List.range l.pool.workers.length).filterMap l.held

end Ledger

def ledger (p : Pool α) (ms : List (Pool.Move α)) : Ledger α := ms.foldl Ledger.next (.ofPool p)

theorem ledger_pool (p : Pool α) (ms : List (Pool.Move α)) : (ledger p ms).pool = p.run ms := by
  have h (l : Ledger α) : (ms.foldl Ledger.next l).pool = l.pool.run ms := by
    induction ms generalizing l with
    | nil => rfl
    | cons m ms ih => exact ih (l.next m)
  exact h (.ofPool p)

inductive Holds : Option (Ticket α) → Option (Worker α) → Prop where
  | absent : Holds none none
  | idle : Holds none (some .idle)
  | busy (t : Ticket α) : Holds (some t) (some (.busy t.job))
  | exited : Holds none (some .exited)

theorem Holds.of_idle {x : Option (Ticket α)} (h : Holds x (some .idle)) : x = none := by
  cases h
  rfl

theorem Holds.of_busy {x : Option (Ticket α)} {job : Job α} (h : Holds x (some (.busy job))) :
    ∃ t, x = some t ∧ t.job = job := by
  cases h with
  | busy t => exact ⟨t, rfl, rfl⟩

theorem Holds.of_exited {x : Option (Ticket α)} {y : Option (Worker α)} (h : Holds x y)
    (hy : ∀ worker ∈ y, worker = .exited) : x = none := by
  cases h with
  | busy t => exact nomatch hy _ rfl
  | _ => rfl

namespace Job

def isPanic : Job α → Bool
  | .returns _ => false
  | .panics => true

def results : Job α → Nat → List (α × Nat)
  | .returns a, w => [(a, w)]
  | .panics, _ => []

def panickers : Job α → Nat → List Nat
  | .returns _, _ => []
  | .panics, w => [w]

end Job

structure Ledger.Consistent (l : Ledger α) : Prop where
  numbers : l.submitted.map Ticket.number = List.range l.submitted.length
  inOrder : l.taken.map Prod.fst ++ l.queued = l.submitted
  jobs : l.queued.map Ticket.job = l.pool.jobs
  hands (w : Nat) : Holds (l.held w) l.pool.workers[w]?
  conserved : (l.queued ++ l.holders ++ l.finished.map Prod.fst).Perm l.submitted
  holder (w : Nat) (t : Ticket α) : l.held w = some t → (t, w) ∈ l.taken
  finisher (x : Ticket α × Nat) : x ∈ l.finished → x ∈ l.taken
  results : l.pool.results = l.finished.flatMap fun x => x.1.job.results x.2
  panicked : l.pool.panicked = l.finished.flatMap fun x => x.1.job.panickers x.2
  steady (w : Nat) : l.pool.workers[w]? = some .exited → l.pool.closed = true ∧ l.queued = []

section Hands

variable {held : Nat → Option (Ticket α)} {workers : List (Worker α)} {w k : Nat} {t : Ticket α}

theorem filterMap_update (hw : w < k) (h : held w = none) :
    ((List.range k).filterMap (update held w (some t))).Perm (t :: (List.range k).filterMap held) := by
  have hmem : w ∈ List.range k := List.mem_range.mpr hw
  have hperm := List.perm_cons_erase hmem
  have hrest : ((List.range k).erase w).filterMap (update held w (some t)) =
      ((List.range k).erase w).filterMap held := by
    apply List.filterMap_congr
    intro v hv
    exact Function.update_of_ne (List.nodup_range.mem_erase_iff.mp hv).1 ..
  have hnew := hperm.filterMap (update held w (some t))
  rw [List.filterMap_cons_some (Function.update_self ..), hrest] at hnew
  have hold := hperm.filterMap held
  rw [List.filterMap_cons_none h] at hold
  exact hnew.trans (hold.symm.cons t)

theorem filterMap_update_none (hw : w < k) (h : held w = some t) :
    (t :: (List.range k).filterMap (update held w none)).Perm ((List.range k).filterMap held) := by
  have hp := filterMap_update (t := t) hw (Function.update_self w none held)
  rw [Function.update_idem, ← h, Function.update_eq_self] at hp
  exact hp.symm

theorem hands_set {a : Worker α} {x : Option (Ticket α)} (h : ∀ v, Holds (held v) workers[v]?)
    (hw : w < workers.length) (hx : Holds x (some a)) (v : Nat) :
    Holds (update held w x v) (workers.set w a)[v]? := by
  by_cases hv : v = w
  · subst hv
    rwa [Function.update_self, List.getElem?_set_self hw]
  · rw [Function.update_of_ne hv, List.getElem?_set_ne (Ne.symm hv)]
    exact h v

theorem held_of_update {x : Option (Ticket α)} {v : Nat} (h : update held w x v = some t) :
    v = w ∧ x = some t ∨ held v = some t := by
  by_cases hv : v = w
  · subst hv
    rw [Function.update_self] at h
    exact .inl ⟨rfl, h⟩
  · rw [Function.update_of_ne hv] at h
    exact .inr h

theorem exited_of_set {a : Worker α} {v : Nat} (h : (workers.set w a)[v]? = some .exited) (ha : a ≠ .exited) :
    workers[v]? = some .exited := by
  by_cases hv : w = v
  · subst hv
    obtain ⟨hlt, heq⟩ := List.getElem?_eq_some_iff.mp h
    rw [List.getElem_set_self] at heq
    exact absurd heq ha
  · rwa [List.getElem?_set_ne hv] at h

end Hands

namespace Ledger

variable {l : Ledger α}

theorem Consistent.submit {job : Job α} (h : l.Consistent) (opened : l.pool.closed = false) :
    Consistent { l.note (.submit job) with pool := { l.pool with jobs := l.pool.jobs ++ [job] } } where
  numbers := by
    simp only [note, List.map_append, h.numbers, List.length_append, List.length_singleton, List.range_succ]
    rfl
  inOrder := by
    simp only [note]
    rw [← List.append_assoc, h.inOrder]
  jobs := by
    simp only [note, List.map_append, h.jobs]
    rfl
  hands := h.hands
  conserved := by
    let t : Ticket α := ⟨l.submitted.length, job⟩
    change (l.queued ++ [t] ++ l.holders ++ l.finished.map Prod.fst).Perm (l.submitted ++ [t])
    have hmove : (l.queued ++ ([t] ++ (l.holders ++ l.finished.map Prod.fst))).Perm
        (l.queued ++ (l.holders ++ l.finished.map Prod.fst ++ [t])) := List.perm_append_comm.append_left _
    refine List.Perm.trans ?_ (h.conserved.append_right [t])
    simpa only [List.append_assoc] using hmove
  holder := h.holder
  finisher := h.finisher
  results := h.results
  panicked := h.panicked
  steady w hw := nomatch (h.steady w hw).1.symm.trans opened

theorem Consistent.take {w : Nat} {job : Job α} {rest : List (Job α)} (h : l.Consistent)
    (idle : l.pool.workers[w]? = some .idle) (head : l.pool.jobs = job :: rest) :
    Consistent
      { l.note (.take w) with
        pool := { l.pool with jobs := rest, workers := l.pool.workers.set w (.busy job) } } := by
  obtain ⟨hw, -⟩ := List.getElem?_eq_some_iff.mp idle
  have hfree : l.held w = none := (idle ▸ h.hands w).of_idle
  -- the ticket of the oldest job comes first
  obtain ⟨t, queued, hq, rfl, hrest⟩ := List.map_eq_cons_iff.mp (h.jobs.trans head)
  have horder := h.inOrder
  have hconserved := h.conserved
  rw [note, hq]
  rw [hq] at horder hconserved
  refine ⟨h.numbers, by simpa using horder, hrest, hands_set h.hands hw (.busy t), ?_, ?_, ?_, h.results,
    h.panicked, ?_⟩
  · refine List.Perm.trans (List.Perm.append_right _ ?_) hconserved
    have hheld := filterMap_update (t := t) hw hfree
    simp only [holders, List.length_set]
    exact (hheld.append_left queued).trans List.perm_middle
  · intro v u hv
    rcases held_of_update hv with ⟨rfl, hu⟩ | hv
    · obtain rfl := Option.some.inj hu
      exact List.mem_concat_self
    · exact List.mem_append_left _ (h.holder v u hv)
  · exact fun x hx => List.mem_append_left _ (h.finisher x hx)
  · intro v hv
    have hnil := (h.steady v (exited_of_set hv nofun)).2
    exact nomatch hq.symm.trans hnil

theorem Consistent.finish {w : Nat} {job : Job α} {p : Pool α} (h : l.Consistent)
    (busy : l.pool.workers[w]? = some (.busy job)) (jobs : p.jobs = l.pool.jobs)
    (workers : p.workers = l.pool.workers.set w .idle) (closed : p.closed = l.pool.closed)
    (results : p.results = l.pool.results ++ job.results w)
    (panicked : p.panicked = l.pool.panicked ++ job.panickers w) :
    Consistent { l.note (.finish w) with pool := p } := by
  obtain ⟨hw, -⟩ := List.getElem?_eq_some_iff.mp busy
  obtain ⟨t, ht, rfl⟩ := (busy ▸ h.hands w).of_busy
  rw [note, ht]
  refine ⟨h.numbers, h.inOrder, h.jobs.trans jobs.symm, ?_, ?_, ?_, ?_, ?_, ?_, ?_⟩
  · rw [workers]
    exact hands_set h.hands hw .idle
  · refine List.Perm.trans ?_ h.conserved
    have hheld := filterMap_update_none hw ht
    simp only [holders, workers, List.length_set, List.map_append, List.append_assoc]
    refine List.Perm.append_left _ (List.Perm.trans ?_ (hheld.append_right _))
    rw [← List.append_assoc]
    exact List.perm_append_singleton ..
  · intro v u hv
    rcases held_of_update hv with ⟨-, hu⟩ | hv
    · cases hu
    · exact h.holder v u hv
  · intro x hx
    rcases List.mem_append.mp hx with hx | hx
    · exact h.finisher x hx
    · obtain rfl := List.mem_singleton.mp hx
      exact h.holder w t ht
  · rw [results, h.results, List.flatMap_append, List.flatMap_singleton]
  · rw [panicked, h.panicked, List.flatMap_append, List.flatMap_singleton]
  · intro v hv
    rw [workers] at hv
    rw [closed]
    exact h.steady v (exited_of_set hv nofun)

theorem Consistent.exit {w : Nat} (h : l.Consistent) (idle : l.pool.workers[w]? = some .idle)
    (empty : l.pool.jobs = []) (closed : l.pool.closed = true) :
    Consistent { l with pool := { l.pool with workers := l.pool.workers.set w .exited } } := by
  obtain ⟨hw, -⟩ := List.getElem?_eq_some_iff.mp idle
  have hfree : l.held w = none := (idle ▸ h.hands w).of_idle
  have hnil : l.queued = [] := List.map_eq_nil_iff.mp (h.jobs.trans empty)
  refine ⟨h.numbers, h.inOrder, h.jobs, ?_, ?_, h.holder, h.finisher, h.results, h.panicked, ?_⟩
  · have hands := hands_set h.hands hw Holds.exited
    rwa [← hfree, Function.update_eq_self] at hands
  · have hp := h.conserved
    simp only [holders, List.length_set] at hp ⊢
    exact hp
  · exact fun _ _ => ⟨closed, hnil⟩

theorem Consistent.next (h : l.Consistent) (m : Pool.Move α) : (l.next m).Consistent := by
  rcases l.pool.step_change m with ⟨hp, hc⟩ | ⟨hp, hc⟩
  · rw [Ledger.next, if_pos hp]
    generalize l.pool.step m = p at hc
    cases hc with
    | submitted opened => exact h.submit opened
    | closed =>
      refine ⟨h.numbers, h.inOrder, h.jobs, h.hands, h.conserved, h.holder, h.finisher, h.results, h.panicked, ?_⟩
      exact fun w hw => ⟨rfl, (h.steady w hw).2⟩
    | taken idle head => exact h.take idle head
    | returned busy => exact h.finish busy rfl rfl rfl rfl (List.append_nil _).symm
    | panicked busy => exact h.finish busy rfl rfl rfl (List.append_nil _).symm rfl
    | exited idle empty closed => exact h.exit idle empty closed
  · rw [Ledger.next, if_neg (by simp [hp]), hc]
    exact h

end Ledger

section Submissions

def submissions : List (Pool.Move α) → List (Job α)
  | [] => []
  | .submit job :: ms => job :: submissions ms
  | .close :: _ => []
  | .take _ :: ms => submissions ms
  | .finish _ :: ms => submissions ms
  | .exit _ :: ms => submissions ms

theorem note_take_submitted (l : Ledger α) (w : Nat) : (l.note (.take w)).submitted = l.submitted := by
  rw [Ledger.note]
  split <;> rfl

theorem note_finish_submitted (l : Ledger α) (w : Nat) : (l.note (.finish w)).submitted = l.submitted := by
  rw [Ledger.note]
  split <;> rfl

theorem foldl_submitted (ms : List (Pool.Move α)) (l : Ledger α) :
    (ms.foldl Ledger.next l).submitted.map Ticket.job =
      l.submitted.map Ticket.job ++ if l.pool.closed then [] else submissions ms := by
  induction ms generalizing l with
  | nil => cases l.pool.closed <;> simp [submissions]
  | cons m ms ih =>
    rw [List.foldl_cons, ih, Ledger.next]
    rcases l.pool.step_change m with ⟨hp, hc⟩ | ⟨hp, hc⟩
    · rw [if_pos hp]
      generalize l.pool.step m = p at hc
      cases hc with
      | submitted opened => simp [Ledger.note, opened, submissions]
      | closed => simp [Ledger.note, submissions]
      | taken => rw [note_take_submitted, submissions]
      | returned => rw [note_finish_submitted, submissions]
      | panicked => rw [note_finish_submitted, submissions]
      | exited => rw [Ledger.note, submissions]
    · rw [if_neg (by simp [hp]), hc]
      cases m with
      | submit job =>
        have closed : l.pool.closed = true := by simpa [Pool.possible] using hp
        rw [closed]
        rfl
      | close => cases hp
      | _ => rw [submissions]

end Submissions

section Runs

def Pool.ofThreads (name : String) (threads : Nat) : Pool α :=
  ⟨name, [], List.replicate threads .idle, [], [], false⟩

theorem create_of_pos {threads : Nat} (name : String) (h : 0 < threads) :
    Pool.create threads name = .ok (.ofThreads name threads : Pool α) := by
  rw [Pool.create, Check.atLeast, if_pos (Nat.succ_le_of_lt h)]
  rfl

theorem consistent_ofThreads (name : String) (threads : Nat) :
    (Ledger.ofPool (.ofThreads name threads : Pool α)).Consistent := by
  refine ⟨rfl, rfl, rfl, ?_, ?_, nofun, nofun, rfl, rfl, ?_⟩
  · intro w
    by_cases hw : w < threads
    · have hidle : (List.replicate threads (.idle : Worker α))[w]? = some .idle := by simp [hw]
      exact hidle ▸ .idle
    · have hnone : (List.replicate threads (.idle : Worker α))[w]? = none := by simp [hw]
      exact hnone ▸ .absent
  · simp [Ledger.ofPool, Ledger.holders]
  · intro w hw
    have hmem := List.mem_of_getElem? hw
    cases List.eq_of_mem_replicate hmem

theorem ledger_consistent (name : String) (threads : Nat) (ms : List (Pool.Move α)) :
    (ledger (.ofThreads name threads) ms).Consistent := by
  have hrun (l : Ledger α) (hl : l.Consistent) : (ms.foldl Ledger.next l).Consistent := by
    induction ms generalizing l with
    | nil => exact hl
    | cons m ms ih => exact ih (l.next m) (hl.next m)
  exact hrun _ (consistent_ofThreads name threads)

theorem length_step (p : Pool α) (m : Pool.Move α) : (p.step m).workers.length = p.workers.length := by
  rcases p.step_change m with ⟨-, hc⟩ | ⟨-, hc⟩
  · generalize p.step m = q at hc
    cases hc <;> simp
  · rw [hc]

theorem length_run (p : Pool α) (ms : List (Pool.Move α)) : (p.run ms).workers.length = p.workers.length := by
  induction ms generalizing p with
  | nil => rfl
  | cons m ms ih => exact (ih (p.step m)).trans (length_step p m)

namespace Ledger

variable {l : Ledger α}

theorem Consistent.panics (h : l.Consistent) :
    l.pool.panicked.length = l.finished.countP fun x => x.1.job.isPanic := by
  rw [h.panicked]
  induction l.finished with
  | nil => rfl
  | cons x xs ih =>
    obtain ⟨⟨n, job⟩, w⟩ := x
    rw [List.flatMap_cons, List.length_append, ih, List.countP_cons]
    cases job <;> simp [Job.panickers, Job.isPanic, Nat.add_comm]

theorem Consistent.complete (h : l.Consistent) (hpos : 0 < l.pool.workers.length)
    (hw : ∀ worker ∈ l.pool.workers, worker = .exited) :
    l.taken.map Prod.fst = l.submitted ∧ l.finished.Perm l.taken := by
  have hexited : l.pool.workers[0]? = some .exited := by
    rw [List.getElem?_eq_getElem hpos, hw _ (List.getElem_mem hpos)]
  have hqueued : l.queued = [] := (h.steady 0 hexited).2
  have hholders : l.holders = [] := by
    apply List.filterMap_eq_nil_iff.mpr
    intro w _
    exact (h.hands w).of_exited fun worker hmem => hw worker (List.mem_of_getElem? hmem)
  have htaken := h.inOrder
  have hfinished := h.conserved
  rw [hqueued, List.append_nil] at htaken
  rw [hqueued, hholders, List.nil_append, List.nil_append] at hfinished
  refine ⟨htaken, ?_⟩
  -- the numbers tell the finished tickets apart
  have hnodup : (l.finished.map Prod.fst).Nodup := by
    apply hfinished.nodup_iff.mpr
    apply List.Nodup.of_map Ticket.number
    rw [h.numbers]
    exact List.nodup_range
  have hsub : l.finished.Subperm l.taken := List.subperm_of_subset (.of_map _ hnodup) h.finisher
  have hlength : l.taken.length = l.finished.length := by
    rw [← List.length_map Prod.fst, htaken, ← hfinished.length_eq, List.length_map]
  exact hsub.perm_of_length_le (Nat.le_of_eq hlength)

end Ledger

end Runs

structure Ledger.Accounting (threads : Nat) (l : Ledger α) : Prop extends l.Consistent where
  crew : l.pool.workers.length = threads
  panics : l.pool.panicked.length = l.finished.countP fun x => x.1.job.isPanic
  complete : (∀ worker ∈ l.pool.workers, worker = .exited) →
    l.taken.map Prod.fst = l.submitted ∧ l.finished.Perm l.taken
  goesOn : l.pool.closed = true → (∃ worker ∈ l.pool.workers, worker ≠ .exited) →
    ∃ m, (l.pool.step m).left < l.pool.left
  ends : l.pool.closed = true → ∀ m, l.pool.step m = l.pool ∨ (l.pool.step m).left < l.pool.left

theorem ledger_accounting {threads : Nat} (name : String) (h : 0 < threads) :
    ∃ p : Pool α, Pool.create threads name = .ok p ∧ ∀ ms : List (Pool.Move α),
      (ledger p ms).pool = p.run ms ∧ (ledger p ms).submitted.map Ticket.job = submissions ms ∧
        (ledger p ms).Accounting threads := by
  refine ⟨.ofThreads name threads, create_of_pos name h, fun ms => ?_⟩
  have hl := ledger_consistent name threads ms
  have hcrew : (ledger (.ofThreads name threads) ms).pool.workers.length = threads := by
    rw [ledger_pool, length_run, Pool.ofThreads, List.length_replicate]
  refine ⟨ledger_pool _ ms, foldl_submitted ms _, hl, hcrew, hl.panics, ?_, ?_, ?_⟩
  · exact hl.complete (Nat.lt_of_lt_of_eq h hcrew.symm)
  · exact fun hc hw => Pool.exists_left_lt hc hw
  · exact fun hc => Pool.step_left hc

def shift : List (Pool.Move Nat) :=
  [.submit (.returns 4), .submit .panics, .take 0, .take 1, .finish 1, .submit (.returns 6), .take 1, .close,
    .finish 0, .exit 0, .finish 1, .exit 1]

theorem ledger_accounting_shift :
    0 < 2 ∧ ∃ p : Pool Nat, Pool.create 2 "io" = .ok p ∧
      (ledger p shift).finished.Perm (ledger p shift).taken ∧ (ledger p shift).pool.panicked.length = 1 := by
  obtain ⟨p, hp, h⟩ := @ledger_accounting Nat 2 "io" (by decide)
  refine ⟨by decide, p, hp, ?_⟩
  obtain ⟨-, -, ha⟩ := h shift
  obtain rfl : Pool.ofThreads "io" 2 = p := Except.ok.inj hp
  have hexited : (ledger (.ofThreads "io" 2) shift).pool.workers = [.exited, .exited] := rfl
  have hcomplete := ha.complete (by simp [hexited])
  exact ⟨hcomplete.2, ha.panics.trans rfl⟩

end TabDeck.Task
