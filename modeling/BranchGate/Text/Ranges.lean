import BranchGate.Text

/-! Character properties given by tables of code point ranges. -/
namespace BranchGate

/-- Ascending, disjoint ranges of code points, ends included. -/
abbrev Ranges := List (Nat × Nat)

def Ranges.has : Ranges → Char → Bool
  | [], _ => false
  | (low, high) :: rest, c =>
    if c.toNat < low then false
    else if c.toNat ≤ high then true
    else Ranges.has rest c

end BranchGate
