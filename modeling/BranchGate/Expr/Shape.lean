import BranchGate.Expr
import BranchGate.Token

/-! Shapes: what is left of lexemes and trees when the contents of texts are dropped. Two of one
shape differ in text literals and text keys at most. -/
namespace BranchGate

def Lexeme.shape : Lexeme → Lexeme
  | .text _ => .text []
  | l => l

def Literal.shape : Literal → Literal
  | .text _ => .text []
  | v => v

def Key.shape : Key → Key
  | .text _ => .text []
  | k => k

def Expr.shape : Expr → Expr
  | .literal v => .literal v.shape
  | .variable n => .variable n
  | .index n key => .index n key.shape
  | .member target name => .member target.shape name
  | .call target name => .call target.shape name
  | .callWith target name argument => .callWith target.shape name argument.shape
  | .not e => .not e.shape
  | .binary op l r => .binary op l.shape r.shape

/-- Tokens in one place and of one shape. -/
structure Token.Alike (t t' : Token) : Prop where
  pos : t.pos = t'.pos
  shape : t.lexeme.shape = t'.lexeme.shape

end BranchGate
