import BranchGate.Rule.Table
import BranchGate.Scan.Brackets
import BranchGate.SyntaxError

/-! Why a gate refuses a condition, and what it notes about that: the shape of the refused
text only, never the text. -/
namespace BranchGate

inductive Rejection
  | empty
  | tooLong (limit : Limit)
  | denied (rule : Rule)
  | parentheses
  | brackets (fault : Scan.BracketFault)
  | method (name : Text)
  | identifier (name : Text)
  | grammar (cause : SyntaxError)
  /-- The depth limit is above what the stack holds, and the stack ran out first. -/
  | stackExhausted
  deriving DecidableEq, Repr

def Rejection.message : Rejection → Text
  | .empty => "Condition expression cannot be empty"
  | .tooLong limit => "Condition expression is too long (max " ++ limit.text ++ " characters)"
  | .denied rule => rule.message
  | .parentheses => "Unbalanced parentheses"
  | .brackets fault => fault.message
  | .method name => "Method \"" ++ name ++ "\" is not allowed"
  | .identifier name => "Unknown identifier \"" ++ name ++ "\""
  | .grammar cause => "Invalid condition syntax: " ++ cause.message
  | .stackExhausted => "Invalid condition syntax: expression is nested too deeply"

/-- Failures that no step of the gate turns into a refusal. -/
inductive Escape
  | tooManyDigits (count : Nat)
  /-- The limit on index digits has too many digits itself to be written into a pattern. -/
  | longLimit
  | repetitionTooLarge
  /-- At least one digit is asked for and none allowed. -/
  | emptyRepetition
  deriving DecidableEq, Repr

def Escape.message : Escape → Text
  | .tooManyDigits count => tooManyDigitsMessage count
  | .longLimit => Text.unwritable
  | .repetitionTooLarge => "the repetition number is too large"
  | .emptyRepetition => "min repeat greater than max repeat at position 6"

inductive Failure
  | rejected (cause : Rejection)
  | escaped (cause : Escape)
  deriving DecidableEq, Repr

def Failure.message : Failure → Text
  | .rejected cause => cause.message
  | .escaped cause => cause.message

inductive Step
  | length | denylist | parentheses | brackets | methods | identifiers | grammar
  deriving DecidableEq, Repr

def Step.text : Step → Text
  | .length => "length"
  | .denylist => "denylist"
  | .parentheses => "parentheses"
  | .brackets => "brackets"
  | .methods => "methods"
  | .identifiers => "identifiers"
  | .grammar => "grammar"

def Rejection.code? : Rejection → Option Text
  | .denied rule => some rule.code
  | _ => none

/-- What is noted about one refusal. -/
inductive Notice
  | rejected (step : Step) (code : Option Text) (length : Nat)
  /-- The pre-check had no text to look at. -/
  | noInput (length : Option Nat)
  | keyword (code : Text) (length : Nat)
  deriving DecidableEq, Repr

end BranchGate
