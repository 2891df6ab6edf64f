import TabDeck.Binder.Basic
/-!
How binders work. What is left to do is an agenda of tasks; performing a task changes the binder, tells
events and may put new tasks in front of the agenda, among them the calls that a listener makes in reaction.
-/
namespace TabDeck.Binder

variable {L K D T P : Type}

inductive Task (L K D T P : Type) where
  | call (c : Call L K T P)
  | resolve (listener : Option L) (r : Request K T P)
  | compute (r : Request K T P)
  | deliver (d : Delivery K D T P)
  /-- Serves the queue of requests, once or until it is empty, after `ran` of them were run. -/
  | serveRequests (once : Bool) (ran : Nat)
  | serveDeliveries (once : Bool) (ran : Nat)

structure Progress (L K D T P : Type) where
  binder : Binder L K D T P
  events : List (Event L K D T P)
  tasks : List (Task L K D T P)
  panicked : Bool

-- sums start at this zero, whatever instances are in scope
local instance : Zero Nat := Zero.ofOfNat0

def Call.weight : Call L K T P → Nat
  | .load _ _ _ => 7
  | _ => 1

def Reaction.weight (r : Reaction L K T P) : Nat := (r.calls.map Call.weight).sum

def Task.weight : Task L K D T P → Nat
  | .call c => c.weight
  | .resolve _ _ => 6
  | .compute _ => 4
  | .deliver _ => 2
  | .serveRequests _ _ => 1
  | .serveDeliveries _ _ => 1

def weight (b : Binder L K D T P) (agenda : List (Task L K D T P)) : Nat :=
  (agenda.map Task.weight).sum + 5 * b.requests.length + 3 * b.deliveries.length +
    (b.reactions.map Reaction.weight).sum

theorem weight_append (b : Binder L K D T P) (xs ys : List (Task L K D T P)) :
    b.weight (xs ++ ys) = b.weight xs + (ys.map Task.weight).sum := by
  simp [weight]; omega

variable [DecidableEq L] [DecidableEq K]

def react (listener : L) (m : Moment K) :
    List (Reaction L K T P) → List (Call L K T P) × List (Reaction L K T P)
  | [] => ([], [])
  | r :: rest =>
    if r.listener = listener ∧ r.moment = m then (r.calls, rest)
    else
      let (calls, left) := react listener m rest
      (calls, r :: left)

theorem react_weight (listener : L) (m : Moment K) (rs : List (Reaction L K T P)) :
    ((react listener m rs).1.map Call.weight).sum + ((react listener m rs).2.map Reaction.weight).sum =
      (rs.map Reaction.weight).sum := by
  induction rs with
  | nil => rfl
  | cons r rs ih =>
    by_cases h : r.listener = listener ∧ r.moment = m
    · simp [react, h, Reaction.weight]
    · simp [react, h]; omega

def tell (b : Binder L K D T P) (listener : Option L) (m : Moment K) (event : L → Event L K D T P) :
    Progress L K D T P :=
  match listener with
  | none => ⟨b, [], [], false⟩
  | some l =>
    let (calls, left) := react l m b.reactions
    ⟨{ b with reactions := left }, [event l], calls.map .call, false⟩

def Progress.before (p : Progress L K D T P) (events : List (Event L K D T P)) : Progress L K D T P :=
  { p with events := events ++ p.events }

def Progress.thenDo (p : Progress L K D T P) (task : Task L K D T P) : Progress L K D T P :=
  { p with tasks := p.tasks ++ [task] }

def finish (hooks : Hooks L K D T P) (b : Binder L K D T P) (listener : Option L) (r : Request K T P)
    (data : Option D) : Progress L K D T P :=
  let target := hooks.present r.key data r.target r.params
  (b.tell listener (.finished r.key) fun l => .finished l r.key data target r.params).before
    [.presented r.key data r.target r.params]

def resolve (hooks : Hooks L K D T P) (w : Wiring) (b : Binder L K D T P) (listener : Option L)
    (r : Request K T P) : Progress L K D T P :=
  if listener.any fun l => !hooks.accepts l r.key r.target r.params then
    ⟨b, [.note (.vetoed r.key)], [], false⟩
  else
    match b.cache.peek? r.key with
    | some d =>
      (finish hooks { b with cache := b.cache.touch r.key } listener r (some d)).before [.note (.hit r.key)]
    | none =>
      let target := hooks.prepare r.key r.target r.params
      let prepared : Request K T P := { r with target }
      let events := [.note (.miss r.key), .prepared r.key target r.params]
      if w.worker = .inline then ⟨b, events, [.compute prepared], false⟩
      else ⟨{ b with requests := b.requests ++ [prepared] }, events, [], false⟩

def compute (hooks : Hooks L K D T P) (w : Wiring) (b : Binder L K D T P) (r : Request K T P) :
    Progress L K D T P :=
  if b.canceled then ⟨b, [.note (.skipped r.key)], [], false⟩
  else
    let started := { b with computations := b.computations + 1 }
    let events := [.computed r.key r.params]
    match hooks.compute b.computations r.key r.params with
    | .panic =>
      if w.worker = .thread then ⟨started, events ++ [.caught], [], false⟩
      else ⟨started, events, [], true⟩
    | .data data =>
      let d : Delivery K D T P := ⟨r, data⟩
      if w.inlineUi then ⟨started, events, [.deliver d], false⟩
      else ⟨{ started with deliveries := b.deliveries ++ [d] }, events, [], false⟩

def deliver (hooks : Hooks L K D T P) (b : Binder L K D T P) (d : Delivery K D T P) :
    Progress L K D T P :=
  if b.canceled then ⟨b, [.note (.dropped d.request.key)], [], false⟩
  else
    let cache := match d.data with
      | some data => b.cache.put d.request.key data
      | none => b.cache
    finish hooks { b with cache } b.listener d.request d.data

def call (b : Binder L K D T P) : Call L K T P → Progress L K D T P
  | .load key target params =>
    (tell { b with canceled := false } b.listener (.load key) fun l => .asked l key target params).thenDo
      (.resolve b.listener ⟨key, target, params⟩)
  | .cancel =>
    (tell { b with canceled := true } b.listener .canceled .canceled).before [.note .canceled]
  | .clearCache => ⟨{ b with cache := b.cache.evictAll }, [], [], false⟩
  | .setListener listener => ⟨{ b with listener }, [], [], false⟩

def perform (hooks : Hooks L K D T P) (w : Wiring) (b : Binder L K D T P) :
    Task L K D T P → Progress L K D T P
  | .call c => b.call c
  | .resolve listener r => b.resolve hooks w listener r
  | .compute r => b.compute hooks w r
  | .deliver d => b.deliver hooks d
  | .serveRequests once ran =>
    match b.requests with
    | [] => ⟨b, [.served ran], [], false⟩
    | r :: rest =>
      if once && ran == 1 then ⟨b, [.served ran], [], false⟩
      else ⟨{ b with requests := rest }, [], [.compute r, .serveRequests once (ran + 1)], false⟩
  | .serveDeliveries once ran =>
    match b.deliveries with
    | [] => ⟨b, [.served ran], [], false⟩
    | d :: rest =>
      if once && ran == 1 then ⟨b, [.served ran], [], false⟩
      else ⟨{ b with deliveries := rest }, [], [.deliver d, .serveDeliveries once (ran + 1)], false⟩

theorem weight_tell (b : Binder L K D T P) (listener : Option L) (m : Moment K)
    (event : L → Event L K D T P) :
    (b.tell listener m event).binder.weight (b.tell listener m event).tasks = b.weight [] := by
  cases listener with
  | none => simp [tell, weight]
  | some l =>
    have := react_weight l m b.reactions
    have hc : (react l m b.reactions).1.map (Task.weight ∘ (Task.call : _ → Task L K D T P)) =
        (react l m b.reactions).1.map Call.weight := rfl
    simp [tell, weight, hc]; omega

theorem weight_perform_lt (hooks : Hooks L K D T P) (w : Wiring) (b : Binder L K D T P)
    (task : Task L K D T P) :
    (perform hooks w b task).binder.weight (perform hooks w b task).tasks < b.weight [task] := by
  cases task with
  | call c =>
    cases c with
    | load key target params =>
      have := weight_tell { b with canceled := false } b.listener (.load key)
        (fun l => .asked l key target params)
      simp [perform, call, Progress.thenDo, weight_append, this]
      simp [weight, Task.weight, Call.weight]
      omega
    | cancel =>
      have := weight_tell { b with canceled := true } b.listener (.canceled : Moment K) .canceled
      simp [perform, call, Progress.before, this]
      simp [weight, Task.weight, Call.weight]
    | clearCache => simp [perform, call, weight, Task.weight, Call.weight]
    | setListener l => simp [perform, call, weight, Task.weight, Call.weight]
  | resolve listener r =>
    simp only [perform, resolve]
    split
    · simp [weight, Task.weight]
    · split
      · simp only [finish, Progress.before, weight_tell]
        simp [weight, Task.weight]
      · split
        · simp [weight, Task.weight]
        · simp [weight, Task.weight]; omega
  | compute r =>
    simp only [perform, compute]
    split
    · simp [weight, Task.weight]
    · split
      · split <;> simp [weight, Task.weight]
      · split
        · simp [weight, Task.weight]
        · simp [weight, Task.weight]; omega
  | deliver d =>
    simp only [perform, deliver]
    split
    · simp [weight, Task.weight]
    · simp only [finish, Progress.before, weight_tell]
      simp [weight, Task.weight]
  | serveRequests once ran =>
    simp only [perform]
    split
    · simp [weight, Task.weight]
    · split
      · simp [weight, Task.weight]
      · simp [weight, Task.weight, *]; omega
  | serveDeliveries once ran =>
    simp only [perform]
    split
    · simp [weight, Task.weight]
    · split
      · simp [weight, Task.weight]
      · simp [weight, Task.weight, *]; omega

def run (hooks : Hooks L K D T P) (w : Wiring) (b : Binder L K D T P) :
    List (Task L K D T P) → Progress L K D T P
  | [] => ⟨b, [], [], false⟩
  | task :: rest =>
    let p := perform hooks w b task
    if p.panicked then { p with tasks := [] }
    else (run hooks w p.binder (p.tasks ++ rest)).before p.events
termination_by agenda => b.weight agenda
decreasing_by
  have := weight_perform_lt hooks w b task
  rw [weight_append]
  simp [weight] at this ⊢
  omega

inductive Op (L K T P : Type) where
  | call (c : Call L K T P)
  | serveRequests (once : Bool)
  | serveDeliveries (once : Bool)

def Op.task : Op L K T P → Task L K D T P
  | .call c => .call c
  | .serveRequests once => .serveRequests once 0
  | .serveDeliveries once => .serveDeliveries once 0

/-- An operation; a thread serves its queue right after it. -/
def step (hooks : Hooks L K D T P) (w : Wiring) (b : Binder L K D T P) (op : Op L K T P) :
    Progress L K D T P :=
  let p := run hooks w b [op.task]
  if w.worker = .thread then
    let served := run hooks w p.binder [.serveRequests false 0]
    { served with events := p.events ++ served.events, panicked := p.panicked }
  else p

end TabDeck.Binder
