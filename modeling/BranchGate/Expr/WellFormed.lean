import BranchGate.Expr.Grammar

/-! Trees that a condition can be written for: numbers within the limit on digits and no decimal
ones, and names that may stand after a dot. -/
namespace BranchGate

/-- Written out, the number is not too long to be read. -/
def IsReadable (n : Nat) : Prop := (Text.ofNat n).length ≤ digitLimit

instance (n : Nat) : Decidable (IsReadable n) := inferInstanceAs (Decidable (_ ≤ _))

def Literal.WellFormed : Literal → Prop
  | .integer n => IsReadable n.natAbs
  | .decimal _ => False
  | .null | .bool _ | .text _ => True

instance : (v : Literal) → Decidable v.WellFormed
  | .integer n => inferInstanceAs (Decidable (IsReadable n.natAbs))
  | .decimal _ => inferInstanceAs (Decidable False)
  | .null | .bool _ | .text _ => inferInstanceAs (Decidable True)

def Key.WellFormed : Key → Prop
  | .integer n => IsReadable n
  | .text _ => True

instance : (k : Key) → Decidable k.WellFormed
  | .integer n => inferInstanceAs (Decidable (IsReadable n))
  | .text _ => inferInstanceAs (Decidable True)

namespace Expr

/-- An ASCII identifier that hides no property. -/
def IsPropertyName (name : Text) : Prop := Text.isName name = true ∧ isProperty name = true

instance (name : Text) : Decidable (IsPropertyName name) := inferInstanceAs (Decidable (_ ∧ _))

def WellFormed (methods : List Text) : Expr → Prop
  | .literal v => v.WellFormed
  | .variable n => IsReadable n
  | .index n key => IsReadable n ∧ key.WellFormed
  | .member target name => target.WellFormed methods ∧ IsPropertyName name
  | .call target name => target.WellFormed methods ∧ IsPropertyName name ∧ name ∈ methods
  | .callWith target name argument => target.WellFormed methods ∧ IsPropertyName name ∧
      name ∈ methods ∧ argument.WellFormed methods
  | .not e => e.WellFormed methods
  | .binary _ l r => l.WellFormed methods ∧ r.WellFormed methods

instance decidableWellFormed (methods : List Text) : (e : Expr) → Decidable (e.WellFormed methods)
  | .literal v => inferInstanceAs (Decidable v.WellFormed)
  | .variable n => inferInstanceAs (Decidable (IsReadable n))
  | .index n key => inferInstanceAs (Decidable (IsReadable n ∧ key.WellFormed))
  | .member target name =>
    have := decidableWellFormed methods target
    inferInstanceAs (Decidable (target.WellFormed methods ∧ IsPropertyName name))
  | .call target name =>
    have := decidableWellFormed methods target
    inferInstanceAs (Decidable (target.WellFormed methods ∧ IsPropertyName name ∧ name ∈ methods))
  | .callWith target name argument =>
    have := decidableWellFormed methods target
    have := decidableWellFormed methods argument
    inferInstanceAs (Decidable (target.WellFormed methods ∧ IsPropertyName name ∧
      name ∈ methods ∧ argument.WellFormed methods))
  | .not e =>
    have := decidableWellFormed methods e
    inferInstanceAs (Decidable (e.WellFormed methods))
  | .binary _ l r =>
    have := decidableWellFormed methods l
    have := decidableWellFormed methods r
    inferInstanceAs (Decidable (l.WellFormed methods ∧ r.WellFormed methods))

end Expr
end BranchGate
