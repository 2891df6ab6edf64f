import Mathlib.Algebra.GroupWithZero.Nat
import TabDeck.Task.Pool

namespace TabDeck.Task

variable {α : Type}

namespace Pool

def possible (p : Pool α) : Move α → Bool
  | .submit _ => !p.closed
  | .close => true
  | .take w => (p.take? w).isSome
  | .finish w => (p.finish? w).isSome
  | .exit w => (p.exit? w).isSome

inductive Change (p : Pool α) : Move α → Pool α → Prop where
  | submitted {job : Job α} (opened : p.closed = false) :
      Change p (.submit job) { p with jobs := p.jobs ++ [job] }
  | closed : Change p .close { p with closed := true }
  | taken {w : Nat} {job : Job α} {rest : List (Job α)} (idle : p.workers[w]? = some .idle)
      (head : p.jobs = job :: rest) :
      Change p (.take w) { p with jobs := rest, workers := p.workers.set w (.busy job) }
  | returned {w : Nat} {a : α} (busy : p.workers[w]? = some (.busy (.returns a))) :
      Change p (.finish w) { p with workers := p.workers.set w .idle, results := p.results ++ [(a, w)] }
  | panicked {w : Nat} (busy : p.workers[w]? = some (.busy .panics)) :
      Change p (.finish w) { p with workers := p.workers.set w .idle, panicked := p.panicked ++ [w] }
  | exited {w : Nat} (idle : p.workers[w]? = some .idle) (empty : p.jobs = []) (closed : p.closed = true) :
      Change p (.exit w) { p with workers := p.workers.set w .exited }

theorem take?_eq {p p' : Pool α} {w : Nat} (h : p.take? w = some p') : p.Change (.take w) p' := by
  unfold take? at h
  split at h
  · next job rest idle head =>
    cases h
    exact .taken idle head
  · cases h

theorem finish?_eq {p p' : Pool α} {w : Nat} (h : p.finish? w = some p') : p.Change (.finish w) p' := by
  unfold finish? at h
  split at h
  · next a busy =>
    cases h
    exact .returned busy
  · next busy =>
    cases h
    exact .panicked busy
  · cases h

theorem exit?_eq {p p' : Pool α} {w : Nat} (h : p.exit? w = some p') : p.Change (.exit w) p' := by
  unfold exit? at h
  split at h
  · next idle empty =>
    split at h
    · next closed =>
      cases h
      exact .exited idle empty closed
    · cases h
  · cases h

theorem step_change (p : Pool α) (m : Move α) :
    p.possible m = true ∧ p.Change m (p.step m) ∨ p.possible m = false ∧ p.step m = p := by
  have attempted {q : Option (Pool α)} (h : ∀ p', q = some p' → p.Change m p') :
      q.isSome = true ∧ p.Change m (q.getD p) ∨ q.isSome = false ∧ q.getD p = p := by
    cases q with
    | none => exact .inr ⟨rfl, rfl⟩
    | some p' => exact .inl ⟨rfl, h p' rfl⟩
  cases m with
  | submit job =>
    rw [possible, step, submit]
    split
    · next hc => exact .inr ⟨by rw [hc]; rfl, rfl⟩
    · next hc => exact .inl ⟨by simp [hc], .submitted (by simpa using hc)⟩
  | close => exact .inl ⟨rfl, .closed⟩
  | take w => exact attempted fun _ => take?_eq
  | finish w => exact attempted fun _ => finish?_eq
  | exit w => exact attempted fun _ => exit?_eq

end Pool

def Worker.left : Worker α → Nat
  | .idle => 1
  | .busy _ => 2
  | .exited => 0

theorem sum_left_set {l : List (Worker α)} {w : Nat} {a b : Worker α} (h : l[w]? = some a) :
    ((l.set w b).map Worker.left).sum + a.left = (l.map Worker.left).sum + b.left := by
  induction l generalizing w with
  | nil => simp at h
  | cons x l ih =>
    cases w with
    | zero =>
      obtain rfl : x = a := by simpa using h
      simp only [List.set_cons_zero, List.map_cons, List.sum_cons]
      omega
    | succ w =>
      have hl := ih (w := w) (by simpa using h)
      simp only [List.set_cons_succ, List.map_cons, List.sum_cons]
      omega

namespace Pool

variable {p : Pool α}

def left (p : Pool α) : Nat := 2 * p.jobs.length + (p.workers.map Worker.left).sum

theorem left_set {w : Nat} {a b : Worker α} {jobs : List (Job α)} (h : p.workers[w]? = some a)
    (hb : 2 * jobs.length + b.left < 2 * p.jobs.length + a.left) :
    2 * jobs.length + ((p.workers.set w b).map Worker.left).sum < p.left := by
  have hs := sum_left_set (b := b) h
  rw [left]
  omega

theorem Change.left_lt {m : Move α} {p' : Pool α} (h : p.Change m p') (hc : p.closed = true) (hm : m ≠ .close) :
    p'.left < p.left := by
  cases h with
  | submitted opened => exact nomatch opened.symm.trans hc
  | closed => exact absurd rfl hm
  | taken idle head =>
    apply left_set idle
    simp only [head, List.length_cons, Worker.left]
    omega
  | returned busy => exact left_set busy (by simp [Worker.left])
  | panicked busy => exact left_set busy (by simp [Worker.left])
  | exited idle => exact left_set idle (by simp [Worker.left])

theorem close_of_closed (hc : p.closed = true) : p.close = p := by
  obtain ⟨name, jobs, workers, results, panicked, closed⟩ := p
  obtain rfl : closed = true := hc
  rfl

theorem step_left (hc : p.closed = true) (m : Move α) : p.step m = p ∨ (p.step m).left < p.left := by
  by_cases hm : m = .close
  · exact .inl (hm ▸ close_of_closed hc)
  · rcases p.step_change m with ⟨-, h⟩ | ⟨-, h⟩
    · exact .inr (h.left_lt hc hm)
    · exact .inl h

theorem exists_left_lt (hc : p.closed = true) (h : ∃ worker ∈ p.workers, worker ≠ .exited) :
    ∃ m, (p.step m).left < p.left := by
  obtain ⟨worker, hmem, hne⟩ := h
  obtain ⟨w, hw⟩ := List.mem_iff_getElem?.mp hmem
  have goes {m : Move α} (hm : m ≠ .close) (hp : p.possible m = true) : ∃ m, (p.step m).left < p.left := by
    rcases p.step_change m with ⟨-, h⟩ | ⟨h, -⟩
    · exact ⟨m, h.left_lt hc hm⟩
    · exact nomatch h.symm.trans hp
  cases worker with
  | exited => exact absurd rfl hne
  | busy job =>
    apply goes (m := .finish w) nofun
    cases job <;> simp [possible, finish?, hw]
  | idle =>
    cases hj : p.jobs with
    | nil =>
      apply goes (m := .exit w) nofun
      simp [possible, exit?, hw, hj, hc]
    | cons job rest =>
      apply goes (m := .take w) nofun
      simp [possible, take?, hw, hj]

end Pool

end TabDeck.Task
