import TabDeck.Text.Basic
/-!
Task queues. A task is a list of instructions; some of them act on the queue itself, so a task can
enqueue further tasks, run the next task in its midst or panic.
-/
namespace TabDeck.Task

inductive Saying (α : Type) where
  | value (a : α)
  | ran (b : Bool)
  | pending (n : Nat)
  | wake (label : α)

inductive Instruction (α : Type) where
  | tell (s : Saying α)
  | spawn (body : List (Instruction α))
  | inline (body : List (Instruction α))
  | runOne
  | pending
  | clearWaker
  | panic

mutual

def Instruction.weight {α : Type} : Instruction α → Nat
  | .spawn body => weights body + 2
  | .inline body => weights body + 1
  | .runOne => 2
  | _ => 1

def weights {α : Type} : List (Instruction α) → Nat
  | [] => 0
  | i :: rest => i.weight + weights rest

end

theorem weights_append {α : Type} (xs ys : List (Instruction α)) :
    weights (xs ++ ys) = weights xs + weights ys := by
  induction xs with
  | nil => simp [weights]
  | cons x xs ih => simp [weights, ih]; omega

structure Queue (α : Type) where
  tasks : List (List (Instruction α))
  waker : Option α

namespace Queue

variable {α : Type}

def empty : Queue α := ⟨[], none⟩

def size (q : Queue α) : Nat := q.tasks.length

-- the sum starts at this zero, whatever instances are in scope
local instance : Zero Nat := Zero.ofOfNat0

def weight (q : Queue α) : Nat := (q.tasks.map fun t => weights t + 1).sum

def push (q : Queue α) (task : List (Instruction α)) : Queue α := { q with tasks := q.tasks ++ [task] }

theorem weight_push (q : Queue α) (task : List (Instruction α)) :
    (q.push task).weight = q.weight + weights task + 1 := by
  simp [weight, push]; omega

def waking (q : Queue α) : List (Saying α) := (q.waker.map Saying.wake).toList

def summary (q : Queue α) : String :=
  Text.summary "QueueExecutor" [("pending", toString q.size)]

end Queue

structure Run (α : Type) where
  queue : Queue α
  said : List (Saying α)
  taken : Nat
  panicked : Bool

namespace Run

variable {α : Type}

def after (r : Run α) (said : List (Saying α)) : Run α := { r with said := said ++ r.said }

def takenOneMore (r : Run α) : Run α := { r with taken := r.taken + 1 }

end Run

variable {α : Type}

/-- Runs a program and then, if `drain` is set, all tasks of the queue. A panic ends the run; what is
still in the queue stays there. -/
def run (drain : Bool) (program : List (Instruction α)) (q : Queue α) : Run α :=
  match program with
  | [] =>
    if drain then
      match _h : q.tasks with
      | [] => ⟨q, [], 0, false⟩
      | task :: rest => (run drain task { q with tasks := rest }).takenOneMore
    else ⟨q, [], 0, false⟩
  | .tell s :: rest => (run drain rest q).after [s]
  | .spawn body :: rest => (run drain rest (q.push body)).after q.waking
  | .inline body :: rest => run drain (body ++ rest) q
  | .runOne :: rest =>
    match _h : q.tasks with
    | [] => (run drain rest q).after [.ran false]
    | task :: others => run drain (task ++ .tell (.ran true) :: rest) { q with tasks := others }
  | .pending :: rest => (run drain rest q).after [.pending q.size]
  | .clearWaker :: rest => run drain rest { q with waker := none }
  | .panic :: _ => ⟨q, [], 0, true⟩
termination_by weights program + q.weight
decreasing_by
  all_goals simp_all [weights, weights_append, Instruction.weight, Queue.weight_push]
  all_goals try simp_all [Queue.weight]
  all_goals omega

inductive Op (α : Type) where
  | execute (task : List (Instruction α))
  | inline (task : List (Instruction α))
  | runOne
  | runPending
  | setWaker (label : α)
  | clearWaker

def step (q : Queue α) : Op α → Run α
  | .execute task => ⟨q.push task, q.waking, 0, false⟩
  | .inline task => run false task q
  | .runOne =>
    match q.tasks with
    | [] => ⟨q, [], 0, false⟩
    | task :: rest => (run false task { q with tasks := rest }).takenOneMore
  | .runPending => run true [] q
  | .setWaker label => ⟨{ q with waker := some label }, [], 0, false⟩
  | .clearWaker => ⟨{ q with waker := none }, [], 0, false⟩

end TabDeck.Task
