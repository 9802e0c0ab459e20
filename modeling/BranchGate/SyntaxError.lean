import BranchGate.Limit
import BranchGate.Token

/-! Why a text is not a condition. -/
namespace BranchGate

inductive SyntaxError
  | unexpectedCharacter (pos : Nat)
  | unterminatedString (pos : Nat)
  | expected (want got : Kind)
  | nestedTooDeeply (limit : Limit)
  | propertyRefused (name : Text)
  | methodRefused (name : Text)
  | indexTarget
  | indexKey
  | unknownIdentifier (name : Text)
  | unexpectedEnd
  | unexpectedToken (kind : Kind) (pos : Nat)
  | trailingTokens
  deriving DecidableEq, Repr

def SyntaxError.message : SyntaxError → Text
  | .unexpectedCharacter pos => "unexpected character at position " ++ Text.ofNat pos
  | .unterminatedString pos => "unterminated string literal at position " ++ Text.ofNat pos
  | .expected want got => "expected " ++ want.label ++ ", got " ++ got.label
  | .nestedTooDeeply limit =>
    "expression is nested too deeply (max " ++ limit.text ++ " levels)"
  | .propertyRefused name => "property \"" ++ name ++ "\" is not allowed"
  | .methodRefused name => "method \"" ++ name ++ "\" is not allowed"
  | .indexTarget => "indexing is only allowed directly on workflow variables"
  | .indexKey => "index must be an integer or a string literal"
  | .unknownIdentifier name => "unknown identifier \"" ++ name ++ "\""
  | .unexpectedEnd => "unexpected end of expression"
  | .unexpectedToken kind pos =>
    "unexpected token " ++ kind.label ++ " at position " ++ Text.ofNat pos
  | .trailingTokens => "unexpected tokens after expression"

/-- Reading fails on a malformed text or, before that is known, on a number too long to be
converted. -/
inductive ReadError
  | malformed (cause : SyntaxError)
  | tooManyDigits (count : Nat)
  deriving DecidableEq, Repr

def tooManyDigitsMessage (count : Nat) : Text :=
  Text.tooManyDigits (": value has " ++ Text.ofNat count ++ " digits")

def ReadError.message : ReadError → Text
  | .malformed cause => cause.message
  | .tooManyDigits count => tooManyDigitsMessage count

/-- The number that digits denote, if there are not too many of them. -/
def readDigits (digits : Text) : Except ReadError Nat :=
  if digitLimit < digits.length then .error (.tooManyDigits digits.length)
  else .ok (Text.toNat digits)

end BranchGate
