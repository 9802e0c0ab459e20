import BranchGate.Number.Binary64
import BranchGate.Text.Quote

/-! Tokens of the condition language. -/
namespace BranchGate

inductive Punct
  | strictEq | strictNe | looseEq | looseNe | and | or | not
  | ge | le | gt | lt | minus | openParen | closeParen | openBracket | closeBracket | dot
  deriving DecidableEq, Repr

namespace Punct

def text : Punct → Text
  | .strictEq => "==="
  | .strictNe => "!=="
  | .looseEq => "=="
  | .looseNe => "!="
  | .and => "&&"
  | .or => "||"
  | .not => "!"
  | .ge => ">="
  | .le => "<="
  | .gt => ">"
  | .lt => "<"
  | .minus => "-"
  | .openParen => "("
  | .closeParen => ")"
  | .openBracket => "["
  | .closeBracket => "]"
  | .dot => "."

def label : Punct → Text
  | .strictEq => "SEQ"
  | .strictNe => "SNE"
  | .looseEq => "EQ"
  | .looseNe => "NE"
  | .and => "AND"
  | .or => "OR"
  | .not => "NOT"
  | .ge => "GE"
  | .le => "LE"
  | .gt => "GT"
  | .lt => "LT"
  | .minus => "MINUS"
  | .openParen => "LPAREN"
  | .closeParen => "RPAREN"
  | .openBracket => "LBRACK"
  | .closeBracket => "RBRACK"
  | .dot => "DOT"

/-- Longer marks stand before their prefixes. -/
def all : List Punct :=
  [.strictEq, .strictNe, .looseEq, .looseNe, .and, .or, .not, .ge, .le, .gt, .lt, .minus,
    .openParen, .closeParen, .openBracket, .closeBracket, .dot]

theorem mem_all (p : Punct) : p ∈ all := by cases p <;> decide

theorem text_ne_nil (p : Punct) : p.text ≠ [] := by cases p <;> decide

end Punct

/-- What a token says, apart from how and where it is written. -/
inductive Lexeme
  | integer (n : Nat)
  | decimal (x : Binary64)
  | text (t : Text)
  | punct (p : Punct)
  | name (t : Text)
  deriving DecidableEq, Repr

/-- Token kinds as messages name them; `ending` is met after the last token. -/
inductive Kind
  | number | string | punct (p : Punct) | name | ending
  deriving DecidableEq, Repr

def Kind.label : Kind → Text
  | .number => "NUMBER"
  | .string => "STRING"
  | .punct p => p.label
  | .name => "IDENT"
  | .ending => "EOF"

def Lexeme.kind : Lexeme → Kind
  | .integer _ | .decimal _ => .number
  | .text _ => .string
  | .punct p => .punct p
  | .name _ => .name

/-- A lexeme with the text it is written as and the position of that text. -/
structure Token where
  lexeme : Lexeme
  source : Text
  pos : Nat
  deriving DecidableEq, Repr

end BranchGate
