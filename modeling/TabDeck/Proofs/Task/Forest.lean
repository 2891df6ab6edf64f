import Mathlib.Data.List.Perm.Basic
/-!
Forests of tasks that enqueue further tasks, and their order level by level.
-/
namespace TabDeck.Task

inductive Tree (α : Type) where
  | node (label : α) (children : List (Tree α)) (panics : Bool)

variable {α : Type}

namespace Tree

def label : Tree α → α
  | node label _ _ => label

def children : Tree α → List (Tree α)
  | node _ children _ => children

def panics : Tree α → Bool
  | node _ _ panics => panics

end Tree

mutual

def Tree.nodes : Tree α → List (Tree α)
  | .node label children panics => .node label children panics :: forest children

def forest : List (Tree α) → List (Tree α)
  | [] => []
  | t :: ts => t.nodes ++ forest ts

end

theorem nodes_eq (t : Tree α) : t.nodes = t :: forest t.children := by
  cases t
  rw [Tree.nodes, Tree.children]

theorem forest_eq (ts : List (Tree α)) : forest ts = ts.flatMap Tree.nodes := by
  induction ts with
  | nil => rfl
  | cons t ts ih => rw [forest, ih, List.flatMap_cons]

theorem forest_children (ts : List (Tree α)) :
    forest (ts.flatMap Tree.children) = ts.flatMap fun t => forest t.children := by
  simp only [forest_eq, List.flatMap_assoc]

theorem forest_perm (ts : List (Tree α)) : (ts ++ forest (ts.flatMap Tree.children)).Perm (forest ts) := by
  have hnodes : (Tree.nodes : Tree α → _) = fun t => t :: forest t.children := funext nodes_eq
  have h := List.map_append_flatMap_perm ts (fun t => t) fun t => forest t.children
  rw [← hnodes, ← forest_eq, List.map_id'] at h
  rwa [forest_children]

theorem length_forest (ts : List (Tree α)) :
    (forest ts).length = ts.length + (forest (ts.flatMap Tree.children)).length := by
  rw [← (forest_perm ts).length_eq, List.length_append]

def breadthFirst : List (Tree α) → List (Tree α)
  | [] => []
  | t :: rest => (t :: rest) ++ breadthFirst ((t :: rest).flatMap Tree.children)
termination_by ts => (forest ts).length
decreasing_by
  have h := length_forest (t :: rest)
  rw [List.length_cons] at h
  omega

theorem breadthFirst_level (ts : List (Tree α)) :
    breadthFirst ts = ts ++ breadthFirst (ts.flatMap Tree.children) := by
  cases ts with
  | nil => simp [breadthFirst]
  | cons t rest => rw [breadthFirst]

theorem breadthFirst_perm (ts : List (Tree α)) : (breadthFirst ts).Perm (forest ts) := by
  induction ts using breadthFirst.induct with
  | case1 => simp [breadthFirst, forest]
  | case2 t rest ih =>
    rw [breadthFirst_level]
    exact (ih.append_left (t :: rest)).trans (forest_perm (t :: rest))

theorem breadthFirst_append (xs ys : List (Tree α)) :
    breadthFirst (xs ++ ys) = xs ++ breadthFirst (ys ++ xs.flatMap Tree.children) := by
  -- the levels below are again such a pair
  induction hn : (forest (xs ++ ys)).length using Nat.strongRecOn generalizing xs ys with
  | ind n ih =>
    have hlen := length_forest (xs ++ ys)
    rw [breadthFirst_level, breadthFirst_level (ys ++ _)]
    simp only [List.flatMap_append] at hlen ⊢
    by_cases hz : xs ++ ys = []
    · obtain ⟨rfl, rfl⟩ := List.append_eq_nil_iff.mp hz
      simp
    · have hpos := List.length_pos_of_ne_nil hz
      rw [ih _ (by omega) (xs.flatMap Tree.children) (ys.flatMap Tree.children) rfl]
      simp only [List.append_assoc]

theorem breadthFirst_cons (t : Tree α) (rest : List (Tree α)) :
    breadthFirst (t :: rest) = t :: breadthFirst (rest ++ t.children) := by
  have h := breadthFirst_append [t] rest
  rwa [List.flatMap_singleton] at h

theorem breadthFirst_arrivals (ts : List (Tree α)) :
    breadthFirst ts = ts ++ (breadthFirst ts).flatMap Tree.children := by
  induction ts using breadthFirst.induct with
  | case1 => simp [breadthFirst]
  | case2 t rest ih =>
    rw [breadthFirst_level, List.flatMap_append, ← ih]

end TabDeck.Task
