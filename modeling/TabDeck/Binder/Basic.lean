import TabDeck.Cache
import TabDeck.Log.Record
/-!
Data binders resolve keys to data and hand the data to a target. Cached data is handed over at once; other
data is computed on a worker and delivered in the context of the user interface.
-/
namespace TabDeck.Binder

open TabDeck.Log (Record)

inductive Outcome (D : Type) where
  | data (d : Option D)
  | panic

structure Hooks (L K D T P : Type) where
  /-- The outcome may depend on how many computations were started before. -/
  compute : Nat → K → P → Outcome D
  prepare : K → T → P → T
  present : K → Option D → T → P → T
  accepts : L → K → T → P → Bool

inductive Call (L K T P : Type) where
  | load (key : K) (target : T) (params : P)
  | cancel
  | clearCache
  | setListener (listener : Option L)

inductive Moment (K : Type) where
  | load (key : K)
  | finished (key : K)
  | canceled
  deriving DecidableEq

structure Reaction (L K T P : Type) where
  listener : L
  moment : Moment K
  calls : List (Call L K T P)

structure Request (K T P : Type) where
  key : K
  target : T
  params : P

structure Delivery (K D T P : Type) where
  request : Request K T P
  data : Option D

inductive Notice (K : Type) where
  | vetoed (key : K)
  | hit (key : K)
  | miss (key : K)
  | skipped (key : K)
  | dropped (key : K)
  | canceled

def Notice.record {K : Type} (text : K → String) : Notice K → Record
  | .vetoed key => ⟨.trace, "load vetoed by listener", [("key", text key)]⟩
  | .hit key => ⟨.trace, "cache hit", [("key", text key)]⟩
  | .miss key => ⟨.trace, "cache miss", [("key", text key)]⟩
  | .skipped key => ⟨.debug, "request canceled before compute", [("key", text key)]⟩
  | .dropped key => ⟨.debug, "result dropped after cancel", [("key", text key)]⟩
  | .canceled => ⟨.debug, "binder canceled", []⟩

inductive Event (L K D T P : Type) where
  | asked (listener : L) (key : K) (target : T) (params : P)
  | prepared (key : K) (target : T) (params : P)
  | computed (key : K) (params : P)
  /-- The target is the one before the data was shown. -/
  | presented (key : K) (data : Option D) (target : T) (params : P)
  | finished (listener : L) (key : K) (data : Option D) (target : T) (params : P)
  | canceled (listener : L)
  | note (n : Notice K)
  | caught
  | served (count : Nat)

/-- Where computations run: on the spot, from a queue that is served on demand, or from the queue of a
thread that serves it as soon as the user interface is done and that survives panics. -/
inductive Worker where
  | inline
  | queue
  | thread
  deriving DecidableEq

structure Wiring where
  worker : Worker
  inlineUi : Bool
  deriving DecidableEq

end TabDeck.Binder

namespace TabDeck

open TabDeck.Binder

structure Binder (L K D T P : Type) where
  cache : Cache K D
  canceled : Bool
  listener : Option L
  computations : Nat
  requests : List (Request K T P)
  deliveries : List (Delivery K D T P)
  reactions : List (Reaction L K T P)

namespace Binder

variable {L K D T P : Type}

def ofCache (cache : Cache K D) (reactions : List (Reaction L K T P)) : Binder L K D T P :=
  ⟨cache, false, none, 0, [], [], reactions⟩

def defaultCapacity : Nat := 64

def create (reactions : List (Reaction L K T P)) : Binder L K D T P :=
  ofCache ⟨defaultCapacity, [], by decide⟩ reactions

def createWith (capacity : Nat) (reactions : List (Reaction L K T P)) :
    Except IllegalArgument (Binder L K D T P) :=
  (Cache.create capacity).map fun cache => ofCache cache reactions

def summary (b : Binder L K D T P) (loader : String) : String :=
  Text.openSummary "DataBinder"
    [("loader", loader), ("cache", b.cache.summary), ("canceled", toString b.canceled)]

end Binder

end TabDeck
