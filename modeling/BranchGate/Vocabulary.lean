import BranchGate.Expr

/-! The names that a condition may use: reserved literals, workflow variables, and the
methods allowed by default. -/
namespace BranchGate

/-- `undefined` denotes the same value as `null`. -/
def Literal.ofName? (name : Text) : Option Literal :=
  if name = "true".toList then some (.bool true)
  else if name = "false".toList then some (.bool false)
  else if name = "null".toList ∨ name = "undefined".toList then some .null
  else none

def reservedNames : List Text := ["false", "null", "true", "undefined"]

/-- The digits of a workflow variable: two underscores, a `v`, and at least one ASCII digit. -/
def variableDigits? : Text → Option Text
  | '_' :: '_' :: 'v' :: ds => if !ds.isEmpty && ds.all Char.isDigit then some ds else none
  | _ => none

def isVariable (name : Text) : Bool := (variableDigits? name).isSome

/-- Inspection only: none changes its target or reaches outside it. -/
def defaultMethods : List Text :=
  ["endsWith", "includes", "indexOf", "startsWith", "toLowerCase", "toString", "toUpperCase",
    "trim"]

/-- Names that begin with two underscores are not properties. -/
def isHiddenProperty : Text → Bool
  | '_' :: '_' :: _ => true
  | _ => false

end BranchGate
