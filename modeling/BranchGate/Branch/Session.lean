import BranchGate.Branch.Spec

/-! A session: settings of gates and branch specs kept under names. A request that fails
changes nothing. -/
namespace BranchGate

structure Session where
  /-- Levels of nesting that the stack holds under every gate. -/
  stackLevels : Nat
  gates : Fields Config
  specs : Fields BranchSpec

namespace Session

def empty (stackLevels : Nat) : Session := ⟨stackLevels, [], []⟩

inductive Fault
  | unknownName (name : Text)
  | config (cause : ConfigError)
  | spec (cause : BranchSpec.Fault)

def gate (s : Session) (name : Text) : Except Fault Config :=
  match s.gates.get? name with
  | some c => .ok c
  | none => .error (.unknownName name)

def spec (s : Session) (name : Text) : Except Fault BranchSpec :=
  match s.specs.get? name with
  | some b => .ok b
  | none => .error (.unknownName name)

def keepGate (s : Session) (name : Text) (overrides : Value) : Except Fault Session :=
  match Config.ofValue s.stackLevels overrides with
  | .ok c => .ok { s with gates := s.gates.put name c }
  | .error cause => .error (.config cause)

def keepSpec (s : Session) (name : Text) (data : Value) : Except Fault (Session × BranchSpec) :=
  match BranchSpec.ofValue data with
  | .ok b => .ok ({ s with specs := s.specs.put name b }, b)
  | .error found => .error (.spec (.issues found))

/-- Changes a stored spec and gives it back. -/
def change (s : Session) (name : Text) (c : BranchSpec.Change) :
    Except Fault (Session × BranchSpec) := do
  let old ← s.spec name
  match old.perform c with
  | .ok new => .ok ({ s with specs := s.specs.put name new }, new)
  | .error cause => .error (.spec cause)

/-- Checks the data of a stored spec anew; the stored one stays. -/
def revalidate (s : Session) (name : Text) : Except Fault BranchSpec := do
  let stored ← s.spec name
  stored.revalidate.mapError .spec

end Session
end BranchGate
