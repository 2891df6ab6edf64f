import TabDeck.Check.Argument
import TabDeck.Log.Record
import TabDeck.Text.Basic
/-!
Pools of workers that share one queue of jobs. Each worker takes the oldest job, finishes it, by returning
or by panicking, and goes on; when the pool is closed it exits as soon as no job is left.
-/
namespace TabDeck.Task

open TabDeck.Log (Record)

inductive Job (α : Type) where
  | returns (a : α)
  | panics

inductive Worker (α : Type) where
  | idle
  | busy (job : Job α)
  | exited

structure Pool (α : Type) where
  name : String
  jobs : List (Job α)
  workers : List (Worker α)
  results : List (α × Nat)
  panicked : List Nat
  closed : Bool

inductive PoolError where
  | argument (e : IllegalArgument)
  | spawn (text : String)

namespace PoolError

def message : PoolError → String
  | .argument e => e.message
  | .spawn text => "failed to spawn worker thread: " ++ text

def failure : PoolError → Failure
  | .argument e => .because e.message (.plain e.message)
  | .spawn text => .because (PoolError.spawn text).message (.plain text)

end PoolError

namespace Pool

variable {α : Type}

def create (threads : Nat) (name : String) : Except PoolError (Pool α) :=
  match Check.atLeast threads 1 "A thread pool needs at least one thread" with
  | .ok n => .ok ⟨name, [], List.replicate n .idle, [], [], false⟩
  | .error e => .error (.argument e)

def threads (p : Pool α) : Nat := p.workers.length

def threadName (p : Pool α) (worker : Nat) : String := p.name ++ "-" ++ toString worker

def startRecord (p : Pool α) : Record :=
  ⟨.debug, "thread pool started", [("threads", toString p.threads), ("name", p.name)]⟩

def panicRecord (p : Pool α) (worker : Nat) : Record :=
  ⟨.error, "task panicked", [("thread", p.threadName worker)]⟩

def summary (p : Pool α) : String :=
  Text.summary "ThreadPoolExecutor"
    [("threads", toString p.threads), ("panicked", toString p.panicked.length)]

/-- A job that comes after the pool was closed is lost. -/
def submit (p : Pool α) (job : Job α) : Pool α :=
  if p.closed then p else { p with jobs := p.jobs ++ [job] }

def close (p : Pool α) : Pool α := { p with closed := true }

def take? (p : Pool α) (worker : Nat) : Option (Pool α) :=
  match p.workers[worker]?, p.jobs with
  | some .idle, job :: rest => some { p with jobs := rest, workers := p.workers.set worker (.busy job) }
  | _, _ => none

def finish? (p : Pool α) (worker : Nat) : Option (Pool α) :=
  match p.workers[worker]? with
  | some (.busy (.returns a)) =>
    some { p with workers := p.workers.set worker .idle, results := p.results ++ [(a, worker)] }
  | some (.busy .panics) =>
    some { p with workers := p.workers.set worker .idle, panicked := p.panicked ++ [worker] }
  | _ => none

def exit? (p : Pool α) (worker : Nat) : Option (Pool α) :=
  match p.workers[worker]?, p.jobs with
  | some .idle, [] => if p.closed then some { p with workers := p.workers.set worker .exited } else none
  | _, _ => none

inductive Move (α : Type) where
  | submit (job : Job α)
  | close
  | take (worker : Nat)
  | finish (worker : Nat)
  | exit (worker : Nat)

def step (p : Pool α) : Move α → Pool α
  | .submit job => p.submit job
  | .close => p.close
  | .take worker => (p.take? worker).getD p
  | .finish worker => (p.finish? worker).getD p
  | .exit worker => (p.exit? worker).getD p

def run (p : Pool α) (moves : List (Move α)) : Pool α := moves.foldl step p

def turns (threads n : Nat) : List (Move α) :=
  (List.range n).flatMap fun i => [.take (i % threads), .finish (i % threads)]

def runAll (p : Pool α) (jobs : List (Job α)) : Pool α :=
  (p.run (jobs.map .submit)).run (turns p.threads jobs.length)

end Pool

end TabDeck.Task
