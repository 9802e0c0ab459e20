import BranchGate.Gate

/-! What is wrong with a document, and where. A check reports all issues it finds, in the order
of the fields. -/
namespace BranchGate

inductive Place
  | field (name : Text)
  | item (i : Nat)
  deriving DecidableEq, Repr

inductive IssueCause
  | missing | notText | notList | extra | frozen
  | notModel (model : Text)
  | refused (cause : Failure)
  | blankTarget | blankNode | noConditions | blankDefault
  deriving DecidableEq, Repr

structure Issue where
  cause : IssueCause
  path : List Place
  deriving DecidableEq, Repr

def IssueCause.kind : IssueCause → Text
  | .missing => "missing"
  | .notText => "string_type"
  | .notList => "list_type"
  | .extra => "extra_forbidden"
  | .frozen => "frozen_instance"
  | .notModel _ => "model_type"
  | .refused _ | .blankTarget | .blankNode | .noConditions | .blankDefault => "value_error"

def IssueCause.message : IssueCause → Text
  | .missing => "Field required"
  | .notText => "Input should be a valid string"
  | .notList => "Input should be a valid list"
  | .extra => "Extra inputs are not permitted"
  | .frozen => "Instance is frozen"
  | .notModel model => "Input should be a valid dictionary or instance of " ++ model
  | .refused cause => "Value error, " ++ cause.message
  | .blankTarget => "Value error, branch.condition.target must be a non-empty string"
  | .blankNode => "Value error, branch.node_id must be a non-empty string"
  | .noConditions => "Value error, branch.conditions must not be empty"
  | .blankDefault =>
    "Value error, branch.default_target must be a non-empty string when set"

namespace Issue

/-- The issue, seen from further out. -/
def inside (outer : List Place) (issue : Issue) : Issue := ⟨issue.cause, outer ++ issue.path⟩

def ofResult {α : Type} : Except (List Issue) α → List Issue
  | .ok _ => []
  | .error issues => issues

/-- One issue for each field that is none of the known ones. -/
def extras (known : List Text) (fields : Fields Value) : List Issue :=
  (fields.names.filter fun name => !known.contains name).map fun name =>
    ⟨.extra, [.field name]⟩

/-- A field that may not be missing. -/
def required {α : Type} (fields : Fields Value) (name : Text)
    (read : Value → Except IssueCause α) : Except (List Issue) α :=
  match fields.get? name with
  | none => .error [⟨.missing, [.field name]⟩]
  | some v => (read v).mapError fun cause => [⟨cause, [.field name]⟩]

/-- A text field that may be missing or null. -/
def optionalText (fields : Fields Value) (name : Text) : Except (List Issue) (Option Text) :=
  match fields.get? name with
  | none | some .null => .ok none
  | some (.text t) => .ok (some t)
  | some _ => .error [⟨.notText, [.field name]⟩]

end Issue
end BranchGate
