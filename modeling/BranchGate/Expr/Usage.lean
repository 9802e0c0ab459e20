import BranchGate.Expr
import BranchGate.Expr.Tree

/-! What an expression uses: the indices of its workflow variables and the names of its
methods, each once and in ascending order. -/
namespace BranchGate

/-- Inserts into a strictly ascending list. -/
def insertAscending {α : Type} (less : α → α → Bool) (x : α) : List α → List α
  | [] => [x]
  | y :: rest =>
    if less x y then x :: y :: rest
    else if less y x then y :: insertAscending less x rest
    else y :: rest

def ascending {α : Type} (less : α → α → Bool) (xs : List α) : List α :=
  xs.foldl (fun acc x => insertAscending less x acc) []

/-- Code point order. -/
def Text.less : Text → Text → Bool
  | _, [] => false
  | [], _ :: _ => true
  | a :: as, b :: bs => a.toNat < b.toNat || (a == b && less as bs)

namespace Expr

/-- What stands at one node of an expression. -/
inductive Node
  | literal (value : Literal)
  | variable (index : Nat)
  | index (key : Key)
  | member (name : Text)
  | call (name : Text)
  | not
  | binary (op : BinOp)
  deriving DecidableEq, Repr

/-- An indexing has its variable as its child; a call has its target and its argument. -/
def toTree : Expr → Tree Node
  | .literal v => .node (.literal v) []
  | .variable n => .node (.variable n) []
  | .index n key => .node (.index key) [.node (.variable n) []]
  | .member target name => .node (.member name) [target.toTree]
  | .call target name => .node (.call name) [target.toTree]
  | .callWith target name argument => .node (.call name) [target.toTree, argument.toTree]
  | .not e => .node .not [e.toTree]
  | .binary op l r => .node (.binary op) [l.toTree, r.toTree]

def Node.usedVariable? : Node → Option Nat
  | .variable n => some n
  | _ => none

def Node.usedMethod? : Node → Option Text
  | .call name => some name
  | _ => none

def usedVariables (e : Expr) : List Nat :=
  ascending (fun a b => a < b) ((Tree.walk [e.toTree]).filterMap Node.usedVariable?)

def usedMethods (e : Expr) : List Text :=
  ascending Text.less ((Tree.walk [e.toTree]).filterMap Node.usedMethod?)

end Expr
end BranchGate
