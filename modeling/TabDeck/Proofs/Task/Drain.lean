import TabDeck.Proofs.Task.Forest
import TabDeck.Task.Queue

namespace TabDeck.Task

variable {α : Type}

mutual

def Tree.program : Tree α → List (Instruction α)
  | .node label children panics =>
    .tell (.value label) :: (spawns children ++ if panics then [.panic] else [])

def spawns : List (Tree α) → List (Instruction α)
  | [] => []
  | t :: ts => .spawn t.program :: spawns ts

end

def Queue.ofForest (ts : List (Tree α)) : Queue α := ⟨ts.map Tree.program, none⟩

def told (ts : List (Tree α)) : List (Saying α) := ts.map fun t => .value t.label

section Steps

theorem run_spawns (drain : Bool) (ts : List (Tree α)) (rest : List (Instruction α))
    (tasks : List (List (Instruction α))) :
    run drain (spawns ts ++ rest) ⟨tasks, none⟩ = run drain rest ⟨tasks ++ ts.map Tree.program, none⟩ := by
  induction ts generalizing tasks with
  | nil => simp [spawns]
  | cons t ts ih =>
    rw [spawns, List.cons_append, run]
    have hpush : (⟨tasks, none⟩ : Queue α).push t.program = ⟨tasks ++ [t.program], none⟩ := rfl
    rw [hpush, ih, List.append_assoc]
    rfl

theorem run_program (t : Tree α) (ts : List (Tree α)) :
    run true t.program (.ofForest ts) =
      (if t.panics then ⟨.ofForest (ts ++ t.children), [], 0, true⟩
        else run true [] (.ofForest (ts ++ t.children))).after [.value t.label] := by
  obtain ⟨label, children, panics⟩ := t
  have htell : run true (Tree.node label children panics).program (.ofForest ts) =
      (run true (spawns children ++ if panics then [.panic] else []) (.ofForest ts)).after [.value label] := by
    rw [Tree.program, run]
  rw [htell, Queue.ofForest, run_spawns, ← List.map_append]
  cases panics with
  | false => rfl
  | true =>
    have hpanic (q : Queue α) : run true [.panic] q = ⟨q, [], 0, true⟩ := by rw [run]
    exact congrArg (Run.after · [.value label]) (hpanic _)

theorem drain_nil : step (.ofForest []) .runPending = (⟨.ofForest [], [], 0, false⟩ : Run α) := by
  rw [step, run]
  rfl

theorem drain_cons (t : Tree α) (ts : List (Tree α)) :
    step (.ofForest (t :: ts)) .runPending =
      ((if t.panics then ⟨.ofForest (ts ++ t.children), [], 0, true⟩
        else step (.ofForest (ts ++ t.children)) .runPending).after [.value t.label]).takenOneMore := by
  rw [step, run]
  exact congrArg Run.takenOneMore (run_program t ts)

end Steps

def Run.following (r : Run α) (before : List (Tree α)) : Run α :=
  { r with said := told before ++ r.said, taken := before.length + r.taken }

def queuedAfter (ts before : List (Tree α)) : List (Tree α) :=
  (ts ++ before.flatMap Tree.children).drop before.length

section Drains

variable {t : Tree α} {ts before later : List (Tree α)}

theorem exists_of_breadthFirst_eq (h : breadthFirst ts = t :: later) :
    ∃ rest, ts = t :: rest ∧ breadthFirst (rest ++ t.children) = later := by
  cases ts with
  | nil => simp [breadthFirst] at h
  | cons t' rest =>
    rw [breadthFirst_cons] at h
    obtain ⟨rfl, hl⟩ := List.cons.inj h
    exact ⟨rest, rfl, hl⟩

theorem drain_following (h : breadthFirst ts = before ++ later) (hc : ∀ b ∈ before, b.panics = false) :
    breadthFirst (queuedAfter ts before) = later ∧
      step (.ofForest ts) .runPending =
        (step (.ofForest (queuedAfter ts before)) .runPending).following before := by
  induction before generalizing ts with
  | nil =>
    simp only [queuedAfter, List.flatMap_nil, List.append_nil, List.length_nil, List.drop_zero]
    exact ⟨h, by simp [Run.following, told]⟩
  | cons b before ih =>
    obtain ⟨rest, rfl, hrest⟩ := exists_of_breadthFirst_eq h
    have hleft : queuedAfter (b :: rest) (b :: before) = queuedAfter (rest ++ b.children) before := by
      simp [queuedAfter]
    obtain ⟨horder, hstep⟩ := ih hrest fun b hb => hc b (List.mem_cons_of_mem _ hb)
    have hb : b.panics = false := hc b List.mem_cons_self
    rw [hleft, drain_cons, hb]
    refine ⟨horder, ?_⟩
    rw [if_neg Bool.false_ne_true, hstep]
    simp only [Run.following, Run.after, Run.takenOneMore, told, List.map_cons, List.cons_append,
      List.nil_append, List.length_cons, Run.mk.injEq, true_and, and_true]
    omega

theorem drain_calm (hc : ∀ t ∈ breadthFirst ts, t.panics = false) :
    step (.ofForest ts) .runPending =
      ⟨.ofForest [], told (breadthFirst ts), (breadthFirst ts).length, false⟩ := by
  have hsplit : breadthFirst ts = breadthFirst ts ++ [] := (List.append_nil _).symm
  obtain ⟨horder, hstep⟩ := drain_following hsplit hc
  have hnil : queuedAfter ts (breadthFirst ts) = [] := by
    rw [breadthFirst_level] at horder
    exact (List.append_eq_nil_iff.mp horder).1
  rw [hstep, hnil, drain_nil]
  simp [Run.following]

theorem drain_panic (h : breadthFirst ts = before ++ t :: later) (hc : ∀ b ∈ before, b.panics = false)
    (ht : t.panics = true) :
    step (.ofForest ts) .runPending =
        ⟨.ofForest (queuedAfter ts (before ++ [t])), told (before ++ [t]), before.length + 1, true⟩ ∧
      breadthFirst (queuedAfter ts (before ++ [t])) = later := by
  obtain ⟨horder, hstep⟩ := drain_following h hc
  obtain ⟨rest, hrest, hlater⟩ := exists_of_breadthFirst_eq horder
  have hleft : queuedAfter ts (before ++ [t]) = rest ++ t.children := by
    have hle : before.length ≤ (ts ++ before.flatMap Tree.children).length := by
      by_contra hn
      rw [queuedAfter, List.drop_eq_nil_of_le (by omega)] at hrest
      cases hrest
    rw [queuedAfter] at hrest ⊢
    rw [List.flatMap_append, ← List.append_assoc, List.length_append, ← List.drop_drop,
      List.drop_append_of_le_length hle, hrest]
    simp
  rw [hleft, hstep, hrest, drain_cons, ht, if_pos rfl]
  exact ⟨by simp [Run.following, Run.after, Run.takenOneMore, told], hlater⟩

theorem exists_first_panic (h : ∃ t ∈ breadthFirst ts, t.panics = true) :
    ∃ before t later, breadthFirst ts = before ++ t :: later ∧ (∀ b ∈ before, b.panics = false) ∧
      t.panics = true := by
  obtain ⟨t, ht⟩ := Option.isSome_iff_exists.mp (List.find?_isSome.mpr h)
  obtain ⟨hp, before, later, hsplit, hc⟩ := List.find?_eq_some_iff_append.mp ht
  exact ⟨before, t, later, hsplit, by simpa using hc, hp⟩

end Drains

def drains : Nat → Queue α → List (Run α)
  | 0, _ => []
  | n + 1, q => step q .runPending :: drains n (step q .runPending).queue

structure Drained (ts : List (Tree α)) (n : Nat) : Prop where
  panicked : (drains (n + 1) (.ofForest ts)).map Run.panicked = List.replicate n true ++ [false]
  said : (drains (n + 1) (.ofForest ts)).flatMap Run.said = told (breadthFirst ts)
  last (r : Run α) : (drains (n + 1) (.ofForest ts)).getLast? = some r → r.queue = .ofForest []

theorem drained_of_countP {n : Nat} {ts : List (Tree α)} (h : (breadthFirst ts).countP Tree.panics = n) :
    Drained ts n := by
  induction n generalizing ts with
  | zero =>
    have hcalm : ∀ t ∈ breadthFirst ts, t.panics = false := by simpa using List.countP_eq_zero.mp h
    have hstep := drain_calm hcalm
    refine ⟨?_, ?_, ?_⟩
    · simp [drains, hstep]
    · simp [drains, hstep]
    · intro r hr
      rw [drains, drains, hstep] at hr
      cases hr
      rfl
  | succ n ih =>
    -- the first drain ends at the first panic, and the others find what is left
    have hpos : 0 < (breadthFirst ts).countP Tree.panics := by omega
    obtain ⟨before, t, later, hsplit, hc, ht⟩ := exists_first_panic (List.countP_pos_iff.mp hpos)
    obtain ⟨hstep, hlater⟩ := drain_panic hsplit hc ht
    have hcount : (breadthFirst (queuedAfter ts (before ++ [t]))).countP Tree.panics = n := by
      have hzero : before.countP Tree.panics = 0 := List.countP_eq_zero.mpr (by simpa using hc)
      rw [hsplit, List.countP_append, hzero, List.countP_cons_of_pos ht] at h
      rw [hlater]
      omega
    obtain ⟨hpanicked, hsaid, hlast⟩ := ih hcount
    refine ⟨?_, ?_, ?_⟩
    · rw [drains, List.map_cons, hstep, hpanicked]
      rfl
    · rw [drains, List.flatMap_cons, hstep, hsaid, hlater, hsplit]
      simp [told]
    · intro r hr
      rw [drains, hstep, drains, List.getLast?_cons_cons] at hr
      exact hlast r hr

structure DrainsInOrder (ts : List (Tree α)) : Prop where
  once : (breadthFirst ts).Perm (forest ts)
  arrivals : breadthFirst ts = ts ++ (breadthFirst ts).flatMap Tree.children
  calm : (∀ t ∈ forest ts, t.panics = false) →
    step (.ofForest ts) .runPending = ⟨.ofForest [], told (breadthFirst ts), (forest ts).length, false⟩
  panic : (∃ t ∈ forest ts, t.panics = true) →
    ∃ before t later, breadthFirst ts = before ++ t :: later ∧ (∀ b ∈ before, b.panics = false) ∧
      t.panics = true ∧
      step (.ofForest ts) .runPending =
        ⟨.ofForest (queuedAfter ts (before ++ [t])), told (before ++ [t]), before.length + 1, true⟩ ∧
      breadthFirst (queuedAfter ts (before ++ [t])) = later
  repeated : Drained ts ((forest ts).countP Tree.panics)

theorem drain_forest (ts : List (Tree α)) : DrainsInOrder ts := by
  have hperm := breadthFirst_perm ts
  refine ⟨hperm, breadthFirst_arrivals ts, ?_, ?_, ?_⟩
  · intro hc
    rw [drain_calm fun t ht => hc t (hperm.mem_iff.mp ht), hperm.length_eq]
  · rintro ⟨t, ht, hp⟩
    obtain ⟨before, t, later, hsplit, hc, hp⟩ := exists_first_panic ⟨t, hperm.mem_iff.mpr ht, hp⟩
    exact ⟨before, t, later, hsplit, hc, hp, drain_panic hsplit hc hp⟩
  · exact drained_of_countP (hperm.countP_eq Tree.panics)

end TabDeck.Task
