import BranchGate.Text.Caseless
import BranchGate.Text.Word

/-! Patterns of forbidden text. A pattern is looked for at every position of a text, with the
character before that position in view. -/
namespace BranchGate

inductive Pattern
  /-- An equals sign that is no part of a comparison. -/
  | assignment
  /-- One of some words, in any case, with no word character on either side. -/
  | word (words : List Text)
  /-- One of some fragments, in any case, anywhere. -/
  | fragment (fragments : List Text)
  | either (p q : Pattern)
  deriving DecidableEq, Repr

namespace Pattern

/-- Characters that make the equals sign after them part of a comparison. -/
def isComparison (c : Char) : Bool := c == '=' || c == '!' || c == '<' || c == '>'

def wordHere (w : Text) (before : Option Char) (s : Text) : Bool :=
  Text.startsCaseless w s && !before.any Text.isWord && !(s.drop w.length).head?.any Text.isWord

/-- The pattern matches at the head of `s`, which comes after `before`. -/
def here : Pattern → (before : Option Char) → (s : Text) → Bool
  | .assignment, before, s =>
    !before.any isComparison &&
      match s with
      | '=' :: rest => rest.head? != some '='
      | _ => false
  | .word words, before, s => words.any fun w => wordHere w before s
  | .fragment fragments, _, s => fragments.any fun f => Text.startsCaseless f s
  | .either p q, before, s => p.here before s || q.here before s

def occursAfter (p : Pattern) : (before : Option Char) → Text → Bool
  | _, [] => false
  | before, c :: rest => p.here before (c :: rest) || p.occursAfter (some c) rest

def occurs (p : Pattern) (s : Text) : Bool := p.occursAfter none s

end Pattern

/-- A pattern with the identifier that records carry and the message that users see. -/
structure Rule where
  code : Text
  pattern : Pattern
  message : Text
  deriving DecidableEq, Repr

def Rule.applies (rule : Rule) (s : Text) : Bool := rule.pattern.occurs s

end BranchGate
