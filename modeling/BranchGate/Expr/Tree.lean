/-! Trees with any number of children, and their traversal by an explicit stack, which needs no
recursion however deep a tree leans. -/
namespace BranchGate

inductive Tree (α : Type) where
  | node (value : α) (children : List (Tree α))

namespace Tree

variable {α : Type}

def value : Tree α → α
  | .node v _ => v

def children : Tree α → List (Tree α)
  | .node _ cs => cs

mutual

def size : Tree α → Nat
  | .node _ cs => sizeAll cs + 1

def sizeAll : List (Tree α) → Nat
  | [] => 0
  | t :: rest => size t + sizeAll rest

end

theorem size_pos (t : Tree α) : 0 < t.size := by
  cases t; simp [size]

theorem sizeAll_append (a b : List (Tree α)) :
    sizeAll (a ++ b) = sizeAll a + sizeAll b := by
  induction a with
  | nil => simp [sizeAll]
  | cons t rest ih => simp [sizeAll, ih, Nat.add_assoc]

theorem sizeAll_reverse (ts : List (Tree α)) : sizeAll ts.reverse = sizeAll ts := by
  induction ts with
  | nil => rfl
  | cons t rest ih => simp [sizeAll_append, sizeAll, ih, Nat.add_comm]

mutual

/-- Values in preorder, children from left to right, before a list of others. -/
def preorderOnto : Tree α → List α → List α
  | .node v cs, tail => v :: preorderOntoAll cs tail

def preorderOntoAll : List (Tree α) → List α → List α
  | [], tail => tail
  | t :: rest, tail => preorderOnto t (preorderOntoAll rest tail)

end

def preorder (t : Tree α) : List α := t.preorderOnto []

/-- Visits the tree on top of the stack and puts its children there, the last one uppermost. -/
def walk : List (Tree α) → List α
  | [] => []
  | .node v cs :: stack => v :: walk (cs.reverse ++ stack)
termination_by stack => sizeAll stack
decreasing_by
  simp [sizeAll_append, sizeAll_reverse, sizeAll, size]

end Tree
end BranchGate
