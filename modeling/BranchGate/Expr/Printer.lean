import BranchGate.Number.Exact
import BranchGate.Text.Quote
import BranchGate.Vocabulary

/-! Writing an expression as a condition. Every operand and every target that is more than a
variable or a literal without a sign stands in parentheses, so no level of operators matters. -/
namespace BranchGate

/-- In single quotes, a backslash before each quote and each backslash. -/
def Text.singleQuoted (t : Text) : Text :=
  let q := Quote.single.char
  q :: (t.flatMap (fun c => if c = q ∨ c = '\\' then ['\\', c] else [c]) ++ [q])

def variableName (n : Nat) : Text := "__v" ++ Text.ofNat n

def Literal.print : Literal → Text
  | .null => "null"
  | .bool true => "true"
  | .bool false => "false"
  | .integer n => Text.ofInt n
  | .decimal x => if x.isNegative then '-' :: x.exact else x.exact
  | .text t => t.singleQuoted

def Key.print : Key → Text
  | .integer n => Text.ofNat n
  | .text t => t.singleQuoted

namespace Expr

/-- Variables and literals without a sign. -/
def isAtom : Expr → Bool
  | .variable _ => true
  | .literal (.integer n) => 0 ≤ n
  | .literal (.decimal x) => !x.isNegative
  | .literal _ => true
  | _ => false

def enclose (e : Expr) (printed : Text) : Text :=
  if e.isAtom then printed else '(' :: (printed ++ [')'])

def print : Expr → Text
  | .literal v => v.print
  | .variable n => variableName n
  | .index n key => variableName n ++ '[' :: (key.print ++ [']'])
  | .member target name => enclose target target.print ++ '.' :: name
  | .call target name => enclose target target.print ++ '.' :: (name ++ "()")
  | .callWith target name argument =>
    enclose target target.print ++ '.' :: (name ++ '(' :: (argument.print ++ [')']))
  | .not e => '!' :: enclose e e.print
  | .binary op l r => enclose l l.print ++ ' ' :: (op.text ++ ' ' :: enclose r r.print)

end Expr
end BranchGate
