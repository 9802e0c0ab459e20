import BranchGate.Gate

/-! The scans of the gate, each by itself on one text, with no regard to what the others say. -/
namespace BranchGate.Gate

structure Report where
  denied : Option Rule
  balanced : Bool
  brackets : Option Scan.BracketFault
  method : Option Text
  identifier : Option Text
  deriving DecidableEq, Repr

def report (maxIndexDigits : Limit) (methods : List Text) (t : Text) : Except Escape Report := do
  let brackets ← bracketFault maxIndexDigits t
  .ok {
    denied := Rule.first? denylist t
    balanced := Scan.parenthesesBalance t
    brackets
    method := Scan.foreignMethod? methods t
    identifier := Scan.strayIdentifier? t }

end BranchGate.Gate
