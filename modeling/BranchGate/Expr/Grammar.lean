import BranchGate.Expr.Parser

/-! The grammar of conditions as a relation between lexemes, trees and nesting. Nesting is the
greatest number of groups, negations and arguments that are open at once. -/
namespace BranchGate.Expr

/-- What a list of lexemes is derived as: operators of some levels, the loosest first, or one
of the tighter forms. -/
inductive Form
  | operators (levels : List OpLevel)
  | unary
  | suffixed
  | primary

def OpLevel.all : List OpLevel := [.or, .and, .equality, .relation]

/-- A name that may stand after a dot. -/
def isProperty (name : Text) : Bool := !isHiddenProperty name

inductive Derives (methods : List Text) : Form → List Lexeme → Expr → Nat → Prop
  | operand {ts e d} : Derives methods .unary ts e d → Derives methods (.operators []) ts e d
  | tighter {level levels ts e d} : Derives methods (.operators levels) ts e d →
      Derives methods (.operators (level :: levels)) ts e d
  | binary {level levels left right l r d₁ d₂ sign op} :
      Derives methods (.operators (level :: levels)) left l d₁ →
      level.operator? sign = some op →
      Derives methods (.operators levels) right r d₂ →
      Derives methods (.operators (level :: levels)) (left ++ sign :: right) (.binary op l r)
        (max d₁ d₂)
  | not {ts e d} : Derives methods .unary ts e d →
      Derives methods .unary (.punct .not :: ts) (.not e) (d + 1)
  | negativeInteger (n : Nat) :
      Derives methods .unary [.punct .minus, .integer n] (.literal (.integer (-(n : Int)))) 0
  | negativeDecimal (x : Binary64) :
      Derives methods .unary [.punct .minus, .decimal x] (.literal (.decimal x.negate)) 0
  | ofSuffixed {ts e d} : Derives methods .suffixed ts e d → Derives methods .unary ts e d
  | ofPrimary {ts e d} : Derives methods .primary ts e d → Derives methods .suffixed ts e d
  | member {ts e d name} : Derives methods .suffixed ts e d → isProperty name = true →
      Derives methods .suffixed (ts ++ [.punct .dot, .name name]) (.member e name) d
  | call {ts e d name} : Derives methods .suffixed ts e d → isProperty name = true →
      name ∈ methods →
      Derives methods .suffixed
        (ts ++ [.punct .dot, .name name, .punct .openParen, .punct .closeParen])
        (.call e name) d
  | callWith {ts e d name inner a d'} : Derives methods .suffixed ts e d →
      isProperty name = true → name ∈ methods →
      Derives methods (.operators OpLevel.all) inner a d' →
      Derives methods .suffixed
        (ts ++ .punct .dot :: .name name :: .punct .openParen :: (inner ++ [.punct .closeParen]))
        (.callWith e name a) (max d (d' + 1))
  | index {ts n d sign key} : Derives methods .suffixed ts (.variable n) d →
      key? sign = some key →
      Derives methods .suffixed (ts ++ [.punct .openBracket, sign, .punct .closeBracket])
        (.index n key) d
  | integer (n : Nat) : Derives methods .primary [.integer n] (.literal (.integer n)) 0
  | decimal (x : Binary64) : Derives methods .primary [.decimal x] (.literal (.decimal x)) 0
  | text (t : Text) : Derives methods .primary [.text t] (.literal (.text t)) 0
  | reserved {name v} : Literal.ofName? name = some v →
      Derives methods .primary [.name name] (.literal v) 0
  | variable {name digits} : variableDigits? name = some digits →
      Derives methods .primary [.name name] (.variable (Text.toNat digits)) 0
  | group {ts e d} : Derives methods (.operators OpLevel.all) ts e d →
      Derives methods .primary (.punct .openParen :: (ts ++ [.punct .closeParen])) e (d + 1)

end BranchGate.Expr
