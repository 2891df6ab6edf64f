namespace TabDeck

abbrev Comparator (α : Type) := α → α → Ordering

inductive Rule (α : Type) : Type 1 where
  | all (compare : Comparator α)
  | only {β : Type} (project : α → Option β) (compare : Comparator β)

variable {α : Type}

/-- Values that a rule does not concern are equal to it. -/
def Rule.compare : Rule α → Comparator α
  | .all compare, a, b => compare a b
  | .only project compare, a, b =>
    match project a, project b with
    | some x, some y => compare x y
    | _, _ => .eq

def Comparator.ofRules (rules : List (Rule α)) : Comparator α :=
  fun a b => ((rules.map fun r => r.compare a b).find? (· != .eq)).getD .eq

def partitionPoint {α : Type} (p : α → Bool) (l : List α) : Nat :=
  match l with
  | [] => 0
  | [a] => if p a then 1 else 0
  | a :: b :: rest =>
    have h : (rest.length + 2) / 2 < (a :: b :: rest).length := by simp; omega
    if p (a :: b :: rest)[(rest.length + 2) / 2] then
      (rest.length + 2) / 2 + partitionPoint p ((a :: b :: rest).drop ((rest.length + 2) / 2))
    else partitionPoint p ((a :: b :: rest).take (rest.length + 2 - (rest.length + 2) / 2))
termination_by l.length
decreasing_by
  · simp only [List.length_drop, List.length_cons]; omega
  · simp only [List.length_take, List.length_cons]; omega

end TabDeck

namespace TabDeck.Dictionary

variable {α β : Type}

def insert [Ord α] (key : α) (value : β) : List (α × β) → List (α × β)
  | [] => [(key, value)]
  | (k, v) :: rest =>
    match compare key k with
    | .lt => (key, value) :: (k, v) :: rest
    | .eq => (key, value) :: rest
    | .gt => (k, v) :: insert key value rest

def erase [BEq α] (key : α) (entries : List (α × β)) : List (α × β) :=
  entries.filter fun e => e.1 != key

def ofList [Ord α] (entries : List (α × β)) : List (α × β) :=
  entries.foldl (fun d e => insert e.1 e.2 d) []

end TabDeck.Dictionary
