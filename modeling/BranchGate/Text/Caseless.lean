import BranchGate.Text

/-! Comparison with ASCII words regardless of case. Besides ASCII case, the dotless and the
dotted i count as `i`, the long s as `s` and the Kelvin sign as `k`. -/
namespace BranchGate.Text

def fold (c : Char) : Char :=
  if c = '\u0131' ∨ c = '\u0130' then 'i'
  else if c = '\u017F' then 's'
  else if c = '\u212A' then 'k'
  else c.toLower

def sameLetter (a b : Char) : Bool := fold a == fold b

/-- `word` stands at the head of the text, in any case. -/
def startsCaseless : (word text : Text) → Bool
  | [], _ => true
  | _ :: _, [] => false
  | w :: ws, c :: cs => sameLetter w c && startsCaseless ws cs

end BranchGate.Text
