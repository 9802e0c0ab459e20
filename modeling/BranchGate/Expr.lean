import BranchGate.Number.Binary64
import BranchGate.Text

/-! Condition trees. Only a workflow variable can be indexed, by an integer or a text, and a
call has one argument or none; the shape of the type says so. -/
namespace BranchGate

/-- Operators in four levels, the loosest first; within a level they group to the left. -/
inductive BinOp
  | or | and
  | strictEq | strictNe | looseEq | looseNe
  | gt | lt | ge | le
  deriving DecidableEq, Repr

def BinOp.text : BinOp → Text
  | .or => "||"
  | .and => "&&"
  | .strictEq => "==="
  | .strictNe => "!=="
  | .looseEq => "=="
  | .looseNe => "!="
  | .gt => ">"
  | .lt => "<"
  | .ge => ">="
  | .le => "<="

inductive Literal
  | null
  | bool (b : Bool)
  | integer (n : Int)
  | decimal (x : Binary64)
  | text (t : Text)
  deriving DecidableEq, Repr

inductive Key
  | integer (n : Nat)
  | text (t : Text)
  deriving DecidableEq, Repr

inductive Expr
  | literal (value : Literal)
  | variable (index : Nat)
  | index (index : Nat) (key : Key)
  | member (target : Expr) (name : Text)
  | call (target : Expr) (name : Text)
  | callWith (target : Expr) (name : Text) (argument : Expr)
  | not (operand : Expr)
  | binary (op : BinOp) (left right : Expr)
  deriving DecidableEq, Repr

end BranchGate
