import BranchGate.Text.Letter
import BranchGate.Text.Numeric

/-! Word characters. Marks, joiners and pictographs are none, so a word ends before them. -/
namespace BranchGate.Text

def isNumber (c : Char) : Bool :=
  decimalDigits.has c || letterNumbers.has c || otherNumbers.has c

def isWord (c : Char) : Bool :=
  if c.toNat < 0x80 then c.isAlphanum || c == '_'
  else letters.has c || isNumber c

end BranchGate.Text
