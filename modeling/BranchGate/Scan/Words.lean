import BranchGate.Mask
import BranchGate.Vocabulary

/-! Scans of masked text for the words and the method calls of a condition. They name what is
not allowed before the grammar would. -/
namespace BranchGate.Scan

/-- A word with the text before it, nearest character first. -/
structure Word where
  name : Text
  before : Text
  deriving DecidableEq, Repr

/-- The words of a text. A word starts at a letter, `_` or `$` outside another word, so
`1e5` holds the word `e5`. -/
def wordsFrom (before : Text) (inWord : Bool) : Text → List Word
  | [] => []
  | c :: rest =>
    if inWord && Text.isNameChar c then wordsFrom (c :: before) true rest
    else if Text.isNameStart c then
      ⟨c :: rest.takeWhile Text.isNameChar, before⟩ :: wordsFrom (c :: before) true rest
    else wordsFrom (c :: before) false rest

def words (s : Text) : List Word := wordsFrom [] false s

/-- The reversed text ends in a dot, blanks aside. -/
def afterDot (before : Text) : Bool := (before.dropWhile Text.isBlank).head? == some '.'

/-- Words glued to a digit belong to a number, and words after a dot name properties. -/
def Word.stray (w : Word) : Bool :=
  !w.before.head?.any Char.isDigit && !afterDot w.before &&
    !(Literal.ofName? w.name).isSome && !isVariable w.name

/-- The first word that is neither a literal, nor a variable, nor a property. -/
def strayIdentifier? (t : Text) : Option Text :=
  ((words (mask t)).find? Word.stray).map (·.name)

/-- The name called right after a dot, when a call stands there. -/
def calledName? (afterDot : Text) : Option Text :=
  let s := afterDot.dropWhile Text.isBlank
  match s with
  | c :: rest =>
    if Text.isNameStart c then
      match (rest.dropWhile Text.isNameChar).dropWhile Text.isBlank with
      | '(' :: _ => some (c :: rest.takeWhile Text.isNameChar)
      | _ => none
    else none
  | [] => none

def calledNames : Text → List Text
  | [] => []
  | c :: rest =>
    if c = '.' then (calledName? rest).toList ++ calledNames rest
    else calledNames rest

/-- The first method called that is not among the allowed ones. -/
def foreignMethod? (allowed : List Text) (t : Text) : Option Text :=
  (calledNames (mask t)).find? fun name => !allowed.contains name

end BranchGate.Scan
