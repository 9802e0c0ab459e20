import BranchGate.Text.Letter
import BranchGate.Text.Mark
import BranchGate.Text.Numeric

/-! Identifiers of the Unicode default syntax, as names of methods in a configuration. The
two exception tables hold the code points whose compatibility forms would not be identifiers
and those that are admitted for stability. -/
namespace BranchGate.Text

/-- Letters that may not start an identifier. -/
def identifierStartLess : Ranges := [
  (0x37A, 0x37A), (0xE33, 0xE33), (0xEB3, 0xEB3), (0x2E2F, 0x2E2F), (0xFC5E, 0xFC63),
  (0xFDFA, 0xFDFB), (0xFE70, 0xFE70), (0xFE72, 0xFE72), (0xFE74, 0xFE74), (0xFE76, 0xFE76),
  (0xFE78, 0xFE78), (0xFE7A, 0xFE7A), (0xFE7C, 0xFE7C), (0xFE7E, 0xFE7E), (0xFF9E, 0xFF9F)]

/-- Characters other than letters and letter numbers that may start an identifier. -/
def identifierStartMore : Ranges := [
  (0x5F, 0x5F), (0x1885, 0x1886), (0x2118, 0x2118), (0x212E, 0x212E)]

/-- Characters that may stand inside an identifier by exception. -/
def identifierInnerMore : Ranges := [
  (0xB7, 0xB7), (0x387, 0x387), (0xE33, 0xE33), (0xEB3, 0xEB3), (0x1369, 0x1371),
  (0x19DA, 0x19DA), (0xFF9E, 0xFF9F)]

def isIdentifierStart (c : Char) : Bool :=
  identifierStartMore.has c ||
    ((letters.has c || letterNumbers.has c) && !identifierStartLess.has c)

def isIdentifierInner (c : Char) : Bool :=
  isIdentifierStart c || marks.has c || decimalDigits.has c || connectors.has c ||
    identifierInnerMore.has c

def isIdentifier : Text → Bool
  | [] => false
  | c :: rest => isIdentifierStart c && rest.all isIdentifierInner

end BranchGate.Text
