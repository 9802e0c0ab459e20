import BranchGate.Limit
import BranchGate.Mask
import BranchGate.Vocabulary

/-! The scans for parentheses and brackets. Brackets may only index a workflow variable, by an
integer of limited length or by one quoted text. -/
namespace BranchGate.Scan

def parenthesesBalance (t : Text) : Bool := t.count '(' == t.count ')'

inductive BracketFault
  | nested | base | unbalanced | content
  deriving DecidableEq, Repr

def BracketFault.message : BracketFault → Text
  | .nested => "Invalid bracket content: nested brackets are not allowed"
  | .base => "Bracket notation is only allowed on workflow variables"
  | .unbalanced => "Unbalanced brackets"
  | .content =>
    "Invalid bracket content: only integer indexes or quoted string keys are allowed"

/-- What an integer index looks like. A limit that is no proper count is read as literal text
after the first digit, which leaves no index that means anything. -/
def isIndex (limit : Limit) (content : Text) : Bool :=
  match limit with
  | .count (.ofNat n) => !content.isEmpty && content.all Char.isDigit && content.length ≤ n
  | limit =>
    match content with
    | d :: rest => d.isDigit && rest == "\x7b1," ++ limit.text ++ "\x7d"
    | [] => false

/-- One quoted text without a backslash and without a further quote of its kind. -/
def isQuotedKey : Text → Bool
  | [] => false
  | c :: rest =>
    match Quote.ofChar? c with
    | none => false
    | some q =>
      rest.getLast? == some q.char && rest.dropLast.all fun d => d != q.char && d != '\\'

/-- The reversed text ends in a workflow variable, blanks aside, that follows no dot. -/
def endsInVariable (before : Text) : Bool :=
  let head := before.dropWhile Text.isBlank
  let name := (head.takeWhile Text.isNameChar).reverse
  isVariable name &&
    ((head.dropWhile Text.isNameChar).dropWhile Text.isBlank).head? != some '.'

/-- Reads the masked and the plain text side by side. `before` is the masked text already
read, nearest character first, and `inside` the plain text since an open bracket, likewise. -/
def bracketFaultFrom (limit : Limit) (before : Text) (inside : Option Text) :
    (masked plain : Text) → Option BracketFault
  | m :: masked, p :: plain =>
    if m = '[' then
      match inside with
      | some _ => some .nested
      | none =>
        if endsInVariable before then bracketFaultFrom limit (m :: before) (some []) masked plain
        else some .base
    else if m = ']' then
      match inside with
      | none => some .unbalanced
      | some reversed =>
        let content := Text.trim reversed.reverse
        if isIndex limit content || isQuotedKey content then
          bracketFaultFrom limit (m :: before) none masked plain
        else some .content
    else bracketFaultFrom limit (m :: before) (inside.map (p :: ·)) masked plain
  | _, _ => if inside.isSome then some .unbalanced else none

def bracketFault? (limit : Limit) (t : Text) : Option BracketFault :=
  bracketFaultFrom limit [] none (mask t) t

/-- Limits from here on cannot be looked for. -/
def repetitionBound : Int := 4294967295

end BranchGate.Scan
