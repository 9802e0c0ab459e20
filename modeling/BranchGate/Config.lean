import BranchGate.Expr.Usage
import BranchGate.Limit
import BranchGate.Overrides
import BranchGate.Text.Identifier
import BranchGate.Vocabulary

/-! The settings of a gate. They are checked once, when they are built; a `Config` satisfies
the checks by its type. -/
namespace BranchGate

structure Config where
  maxLength : Limit
  maxIndexDigits : Limit
  maxDepth : Limit
  /-- Strictly ascending. -/
  methods : List Text
  /-- Levels of nesting that the stack holds where the gate runs; no override names them. -/
  stackLevels : Nat
  maxLength_pos : 0 < maxLength.value
  maxIndexDigits_pos : 0 < maxIndexDigits.value
  maxDepth_pos : 0 < maxDepth.value
  methods_ne_nil : methods ≠ []
  methods_identifiers : ∀ name ∈ methods, Text.isIdentifier name = true

inductive Setting
  | maxLength | maxIndexDigits | maxDepth | methods
  deriving DecidableEq, Repr

def Setting.key : Setting → Text
  | .maxLength => "max_length"
  | .maxIndexDigits => "max_index_digits"
  | .maxDepth => "max_depth"
  | .methods => "method_whitelist"

def Setting.all : List Setting := [.maxLength, .maxIndexDigits, .maxDepth, .methods]

/-- The key that the settings themselves go by while they are built; it is never free. -/
def ownKey : Text := "self"

inductive ConfigError
  | overrides (cause : Overrides.Fault)
  | unknownKey (key : Text)
  | ownKeyGiven
  | notPositive (setting : Setting)
  | notCollection
  | notIdentifiers
  /-- A member of the collection is itself a list or a record. -/
  | compoundMember (kind : Text)
  deriving DecidableEq, Repr

def ConfigError.message : ConfigError → Text
  | .overrides cause => cause.message
  | .unknownKey key =>
    "ValidatorConfig.__init__() got an unexpected keyword argument '" ++ key ++ "'"
  | .ownKeyGiven =>
    "ValidatorConfig.__init__() got multiple values for argument '" ++ ownKey ++ "'"
  | .notPositive setting => setting.key ++ " must be a positive integer"
  | .notCollection => "method_whitelist must be a collection of method names"
  | .notIdentifiers => "method_whitelist must be a non-empty set of identifiers"
  | .compoundMember kind => Value.compoundMember kind

namespace Config

theorem default_identifiers : ∀ name ∈ defaultMethods, Text.isIdentifier name = true := by
  decide

def default : Config where
  maxLength := .count 10000
  maxIndexDigits := .count 4
  maxDepth := .count 64
  methods := defaultMethods
  -- Any number that holds the depth gives the same gate.
  stackLevels := 500
  maxLength_pos := by decide
  maxIndexDigits_pos := by decide
  maxDepth_pos := by decide
  methods_ne_nil := by decide
  methods_identifiers := default_identifiers

def limit? : Value → Option Limit
  | .integer n => some (.count n)
  | .bool b => some (.flag b)
  | _ => none

/-- An overriding limit, or the default one. -/
def limitOf (overrides : Fields Value) (setting : Setting) (fallback : Limit) :
    Except ConfigError { l : Limit // 0 < l.value } :=
  let given := match overrides.get? setting.key with
    | none => some fallback
    | some v => limit? v
  match given with
  | some l => if h : 0 < l.value then .ok ⟨l, h⟩ else .error (.notPositive setting)
  | none => .error (.notPositive setting)

/-- The members of a collection; a text is none. -/
def members (v : Value) : Except ConfigError (List Value) :=
  match v, v.parts? with
  | .text _, _ | _, none => .error .notCollection
  | _, some items => .ok items

def refuseCompound (items : List Value) : Except ConfigError Unit :=
  match items.find? Value.isCompound with
  | some v => .error (.compoundMember v.kindName)
  | none => .ok ()

/-- The distinct names in code point order. -/
def methodsOf (overrides : Fields Value) : Except ConfigError
    { names : List Text // names ≠ [] ∧ ∀ name ∈ names, Text.isIdentifier name = true } :=
  match overrides.get? Setting.methods.key with
  | none => .ok ⟨defaultMethods, by decide, default_identifiers⟩
  | some v => do
    let items ← members v
    refuseCompound items
    let names := ascending Text.less (items.filterMap Value.text?)
    if h : items.all (fun v => v.text?.isSome) = true ∧ names ≠ [] ∧
        ∀ name ∈ names, Text.isIdentifier name = true then
      .ok ⟨names, h.2⟩
    else .error .notIdentifiers

/-- What is wrong with a key, whatever its value. -/
def keyError? (key : Text) : Option ConfigError :=
  if key = ownKey then some .ownKeyGiven
  else if Setting.all.any fun s => s.key == key then none
  else some (.unknownKey key)

/-- The defaults with some settings replaced, over a stack that holds some levels. The first wrong
key is refused before any value is looked at; the values are checked in the order of the
settings. -/
def load (stackLevels : Nat) (overrides : Fields Value) : Except ConfigError Config :=
  match overrides.names.findSome? keyError? with
  | some cause => .error cause
  | none => do
    let length ← limitOf overrides .maxLength default.maxLength
    let digits ← limitOf overrides .maxIndexDigits default.maxIndexDigits
    let depth ← limitOf overrides .maxDepth default.maxDepth
    let names ← methodsOf overrides
    .ok {
      maxLength := length.val
      maxIndexDigits := digits.val
      maxDepth := depth.val
      methods := names.val
      stackLevels
      maxLength_pos := length.property
      maxIndexDigits_pos := digits.property
      maxDepth_pos := depth.property
      methods_ne_nil := names.property.1
      methods_identifiers := names.property.2 }

def ofValue (stackLevels : Nat) (v : Value) : Except ConfigError Config :=
  match Overrides.ofValue v with
  | .ok overrides => load stackLevels overrides
  | .error cause => .error (.overrides cause)

end Config
end BranchGate
