import BranchGate.Text

/-! Configured limits. A limit may be given as a truth value: it then counts 1 or 0 and is
written as the word. -/
namespace BranchGate

inductive Limit
  | count (n : Int)
  | flag (b : Bool)
  deriving DecidableEq, Repr

namespace Limit

def value : Limit → Int
  | .count n => n
  | .flag true => 1
  | .flag false => 0

def text : Limit → Text
  | .count n => Text.ofInt n
  | .flag true => "True"
  | .flag false => "False"

end Limit
end BranchGate
