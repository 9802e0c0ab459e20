import BranchGate.Branch.Condition

/-! Branch specs: the conditions of one branch node. A spec is checked when it is made; later
its list may change and its two other fields may be set to anything, but each condition in it
stays one that was checked. -/
namespace BranchGate

structure BranchSpec where
  nodeId : Value
  conditions : List BranchCondition
  defaultTarget : Value

namespace BranchSpec

def nodeField : Text := "node_id"
def conditionsField : Text := "conditions"
def defaultField : Text := "default_target"

def readConditions (i : Nat) : List Value → Except (List Issue) (List BranchCondition)
  | [] => .ok []
  | v :: rest =>
    let head := (BranchCondition.ofValue v).mapError fun issues =>
      issues.map (Issue.inside [.field conditionsField, .item i])
    match head, readConditions (i + 1) rest with
    | .ok c, .ok cs => .ok (c :: cs)
    | head, tail => .error (Issue.ofResult head ++ Issue.ofResult tail)

/-- A missing list is an empty one. -/
def conditionsOf (fields : Fields Value) : Except (List Issue) (List BranchCondition) :=
  match fields.get? conditionsField with
  | none => .ok []
  | some (.list items) => readConditions 0 items
  | some _ => .error [⟨.notList, [.field conditionsField]⟩]

/-- The check of the whole, once every field is right. -/
def whole (node : Text) (conditions : List BranchCondition) (fallback : Option Text) :
    Except (List Issue) BranchSpec :=
  if conditions.isEmpty then .error [⟨.noConditions, []⟩]
  else if fallback.any Text.allBlank then .error [⟨.blankDefault, []⟩]
  else .ok ⟨.text node, conditions, Value.ofOption .text fallback⟩

def ofFields (fields : Fields Value) : Except (List Issue) BranchSpec :=
  let node := Issue.required fields nodeField (BranchCondition.readNonBlank .blankNode)
  let conditions := conditionsOf fields
  let fallback := Issue.optionalText fields defaultField
  match node, conditions, fallback,
      Issue.extras [nodeField, conditionsField, defaultField] fields with
  | .ok n, .ok cs, .ok d, [] => whole n cs d
  | n, cs, d, extras =>
    .error (Issue.ofResult n ++ Issue.ofResult cs ++ Issue.ofResult d ++ extras)

def ofValue : Value → Except (List Issue) BranchSpec
  | .record fields => ofFields fields
  | _ => .error [⟨.notModel "BranchSpec", []⟩]

def toValue (s : BranchSpec) : Value :=
  .record [(nodeField, s.nodeId), (conditionsField, .list (s.conditions.map (·.toValue))),
    (defaultField, s.defaultTarget)]

/-- The variables of all conditions, each once, in ascending order. -/
def usedVariables (s : BranchSpec) : Except Failure (List Nat) := do
  let trees ← s.conditions.mapM BranchCondition.compile
  .ok (ascending (fun a b => a < b) (trees.flatMap Expr.usedVariables))

/-- The position that an index denotes; negative ones count from the end. -/
def position? (length : Nat) (index : Int) : Option Nat :=
  let i := if index < 0 then index + length else index
  if 0 ≤ i ∧ i < length then some i.toNat else none

inductive Fault
  | issues (found : List Issue)
  | removeFromNone
  | removeOutOfRange
  | indexOutOfRange
  | noField (name : Text)
  /-- Conditions are gone through, so a value without parts cannot stand for them. -/
  | withoutParts (kind : Text)
  deriving DecidableEq, Repr

def Fault.message : Fault → Text
  | .issues _ => []
  | .removeFromNone => "pop from empty list"
  | .removeOutOfRange => "pop index out of range"
  | .indexOutOfRange => "list index out of range"
  | .noField name => "\"BranchSpec\" object has no field \"" ++ name ++ "\""
  | .withoutParts kind => Value.withoutParts kind

inductive Change
  | append (data : Value)
  | remove (index : Int)
  | assign (field : Text) (value : Value)
  | assignInside (index : Int) (field : Text)

/-- Names that begin with an underscore are kept apart from the fields, and what is set under
them is never shown. -/
def isApart (field : Text) : Bool := field.head? == some '_'

/-- Assignment checks the name of the field and not the value. Only what is empty can take the
place of the conditions. -/
def assign (s : BranchSpec) (field : Text) (value : Value) : Except Fault BranchSpec :=
  if field = nodeField then .ok { s with nodeId := value }
  else if field = defaultField then .ok { s with defaultTarget := value }
  else if field = conditionsField then
    match value.parts? with
    | none => .error (.withoutParts value.kindName)
    | some [] => .ok { s with conditions := [] }
    | some _ => .ok s
  else if isApart field then .ok s
  else .error (.noField field)

def remove (s : BranchSpec) (index : Int) : Except Fault BranchSpec :=
  if s.conditions.isEmpty then .error .removeFromNone
  else
    match position? s.conditions.length index with
    | some i => .ok { s with conditions := s.conditions.eraseIdx i }
    | none => .error .removeOutOfRange

/-- The spec that a change leads to. -/
def perform (s : BranchSpec) : Change → Except Fault BranchSpec
  | .append data =>
    match BranchCondition.ofValue data with
    | .ok c => .ok { s with conditions := s.conditions ++ [c] }
    | .error found => .error (.issues found)
  | .remove index => s.remove index
  | .assign field value => s.assign field value
  | .assignInside index field =>
    match position? s.conditions.length index with
    | some _ => if isApart field then .ok s else .error (.issues [⟨.frozen, [.field field]⟩])
    | none => .error .indexOutOfRange

/-- The spec that the data of a spec make when they are checked anew. -/
def revalidate (s : BranchSpec) : Except Fault BranchSpec :=
  (ofValue s.toValue).mapError .issues

end BranchSpec
end BranchGate
