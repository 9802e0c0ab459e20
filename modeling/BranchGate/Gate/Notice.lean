import BranchGate.Gate.Rejection
import BranchGate.Value

/-! The log form of a notice: a fixed message and named fields. -/
namespace BranchGate.Notice

def message : Notice → Text
  | .rejected .. => "condition rejected"
  | .noInput _ | .keyword .. => "condition pre-check rejected"

def lengthValue (n : Nat) : Value := .integer n

def fields : Notice → Fields Value
  | .rejected step code length =>
    [("event", "cond.validate.rejected"), ("step", .text step.text),
      ("code", Value.ofOption .text code), ("length", lengthValue length)]
  | .noInput length =>
    [("event", "cond.prevalidate.rejected"), ("step", "input"),
      ("length", Value.ofOption lengthValue length)]
  | .keyword code length =>
    [("event", "cond.prevalidate.rejected"), ("step", "keywords"), ("code", .text code),
      ("length", lengthValue length)]

end BranchGate.Notice
