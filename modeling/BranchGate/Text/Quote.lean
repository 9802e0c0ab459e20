import BranchGate.Text

/-! The two quotation marks that open and close a string. -/
namespace BranchGate

inductive Quote
  | single | double
  deriving DecidableEq, Repr

namespace Quote

def char : Quote → Char
  | .single => '\x27'
  | .double => '\x22'

def ofChar? (c : Char) : Option Quote :=
  if c = single.char then some .single
  else if c = double.char then some .double
  else none

theorem ofChar?_char (q : Quote) : ofChar? q.char = some q := by
  cases q <;> rfl

theorem ofChar?_eq_some {c : Char} {q : Quote} : ofChar? c = some q ↔ c = q.char := by
  constructor
  · intro h
    unfold ofChar? at h
    split at h
    · simp_all
    · split at h <;> simp_all
  · rintro rfl; exact ofChar?_char q

end Quote
end BranchGate
