import BranchGate.Branch.Issue

/-! Branch conditions: an expression that passed the gate, kept trimmed, and the step to go to
when it holds. -/
namespace BranchGate

structure BranchCondition where
  expr : Text
  target : Text
  label : Option Text
  deriving DecidableEq, Repr

namespace BranchCondition

def exprField : Text := "expr"
def targetField : Text := "target"
def labelField : Text := "label"

def readExpr : Value → Except IssueCause Text
  | .text t =>
    match Gate.compile Config.default (.text t) with
    | .ok _ => .ok (Text.trim t)
    | .error cause => .error (.refused cause)
  | _ => .error .notText

/-- A text with content, kept as it is. -/
def readNonBlank (blank : IssueCause) : Value → Except IssueCause Text
  | .text t => if Text.allBlank t then .error blank else .ok t
  | _ => .error .notText

def ofFields (fields : Fields Value) : Except (List Issue) BranchCondition :=
  let expr := Issue.required fields exprField readExpr
  let target := Issue.required fields targetField (readNonBlank .blankTarget)
  let label := Issue.optionalText fields labelField
  match expr, target, label, Issue.extras [exprField, targetField, labelField] fields with
  | .ok e, .ok t, .ok l, [] => .ok ⟨e, t, l⟩
  | e, t, l, extras =>
    .error (Issue.ofResult e ++ Issue.ofResult t ++ Issue.ofResult l ++ extras)

def ofValue : Value → Except (List Issue) BranchCondition
  | .record fields => ofFields fields
  | _ => .error [⟨.notModel "BranchCondition", []⟩]

def toValue (c : BranchCondition) : Value :=
  .record [(exprField, .text c.expr), (targetField, .text c.target),
    (labelField, Value.ofOption .text c.label)]

/-- The tree of the stored expression. -/
def compile (c : BranchCondition) : Except Failure Expr :=
  Gate.compile Config.default (.text c.expr)

end BranchCondition
end BranchGate
