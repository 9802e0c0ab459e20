import BranchGate.Expr.Grammar

/-! Nesting counted along a list of lexemes: the greatest number of groups, negations and arguments
that are open at once. A negation stays open to the end of its operand, a group or an argument to
its closing parenthesis. -/
namespace BranchGate.Expr

def isOperator (l : Lexeme) : Bool := OpLevel.all.any fun level => (level.operator? l).isSome

/-- `level` is what is open, `bases` what was open at the start of each group or argument around,
itself included and the innermost first; an operator takes the level back there. -/
def nestingFrom (peak level : Nat) (bases : List Nat) : List Lexeme → Nat
  | [] => peak
  | .punct .openParen :: .punct .closeParen :: rest => nestingFrom peak level bases rest
  | .punct .openParen :: rest =>
    nestingFrom (max peak (level + 1)) (level + 1) ((level + 1) :: bases) rest
  | .punct .closeParen :: rest => nestingFrom peak (bases.headD 1 - 1) bases.tail rest
  | .punct .not :: rest => nestingFrom (max peak (level + 1)) (level + 1) bases rest
  | l :: rest => nestingFrom peak (if isOperator l then bases.headD 0 else level) bases rest

def nesting (lexs : List Lexeme) : Nat := nestingFrom 0 0 [] lexs

end BranchGate.Expr
