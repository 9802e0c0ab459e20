import BranchGate.Value

/-! Overrides: named values that take the place of defaults. They come as a record, or as a
list whose parts each hold a name and a value. -/
namespace BranchGate.Overrides

inductive Fault
  | withoutParts (kind : Text)
  | notPair (position : Nat)
  | wrongLength (position length : Nat)
  | compoundName (kind : Text)
  /-- The name at some place is no text. -/
  | unnamed
  deriving DecidableEq, Repr

def place (position : Nat) : Text :=
  "dictionary update sequence element #" ++ Text.ofNat position

def Fault.message : Fault → Text
  | .withoutParts kind => Value.withoutParts kind
  | .notPair position => "cannot convert " ++ place position ++ " to a sequence"
  | .wrongLength position length =>
    place position ++ " has length " ++ Text.ofNat length ++ "; 2 is required"
  | .compoundName kind => Value.compoundMember kind
  | .unnamed => "keywords must be strings"

def pair (position : Nat) (v : Value) : Except Fault (Value × Value) :=
  match v.parts? with
  | none => .error (.notPair position)
  | some [name, value] =>
    if name.isCompound then .error (.compoundName name.kindName) else .ok (name, value)
  | some parts => .error (.wrongLength position parts.length)

def pairs (position : Nat) : List Value → Except Fault (List (Value × Value))
  | [] => .ok []
  | v :: rest => do
    let first ← pair position v
    let others ← pairs (position + 1) rest
    .ok (first :: others)

/-- Names are looked at once every pair is known to be one. -/
def named : List (Value × Value) → Except Fault (List (Text × Value))
  | [] => .ok []
  | (.text name, value) :: rest => (named rest).map ((name, value) :: ·)
  | _ :: _ => .error .unnamed

/-- A value that does not count as given overrides nothing. Of two pairs with one name the
later gives the value and the earlier the place. -/
def ofValue (v : Value) : Except Fault (Fields Value) :=
  if v.isGiven then
    match v with
    | .record fields => .ok fields
    | v =>
      match v.parts? with
      | none => .error (.withoutParts v.kindName)
      | some parts => do
        let found ← pairs 0 parts
        let fields ← named found
        .ok (Fields.ofPairs fields)
  else .ok []

end BranchGate.Overrides
