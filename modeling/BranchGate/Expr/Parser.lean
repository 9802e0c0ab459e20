import BranchGate.Token.Lexer
import BranchGate.Vocabulary

/-! Parsing by descent. Each parser returns fewer tokens than it was given, which ends the
loops over operators and suffixes; nested expressions recurse on the levels still allowed, not
on the length of the input. -/
namespace BranchGate.Expr

/-- The allowed methods and the limit on nested groups, negations and arguments. -/
structure Allowance where
  methods : List Text
  depth : Limit

/-- An expression and the tokens after it, fewer than `bound`. -/
structure Parsed (bound : Nat) where
  value : Expr
  rest : List Token
  shorter : rest.length < bound

abbrev Parser := (ts : List Token) → Except ReadError (Parsed ts.length)

def fail {α : Type} (cause : SyntaxError) : Except ReadError α := .error (.malformed cause)

/-- The tokens after the mark that has to come next. -/
def expect (p : Punct) : (ts : List Token) →
    Except ReadError { rest : List Token // rest.length < ts.length }
  | [] => fail (.expected (.punct p) .ending)
  | t :: rest =>
    if t.lexeme = .punct p then .ok ⟨rest, by simp⟩
    else fail (.expected (.punct p) t.lexeme.kind)

inductive OpLevel
  | or | and | equality | relation
  deriving DecidableEq, Repr

def OpLevel.operator? : OpLevel → Lexeme → Option BinOp
  | .or, .punct .or => some .or
  | .and, .punct .and => some .and
  | .equality, .punct .strictEq => some .strictEq
  | .equality, .punct .strictNe => some .strictNe
  | .equality, .punct .looseEq => some .looseEq
  | .equality, .punct .looseNe => some .looseNe
  | .relation, .punct .gt => some .gt
  | .relation, .punct .lt => some .lt
  | .relation, .punct .ge => some .ge
  | .relation, .punct .le => some .le
  | _, _ => none

/-- The operators of one level that follow a left operand. -/
def chainFrom (level : OpLevel) (operand : Parser) (left : Expr) (ts : List Token) :
    Except ReadError (Parsed (ts.length + 1)) :=
  match ts with
  | [] => .ok ⟨left, [], by simp⟩
  | t :: rest =>
    match level.operator? t.lexeme with
    | none => .ok ⟨left, t :: rest, by simp⟩
    | some op => do
      let right ← operand rest
      let whole ← chainFrom level operand (.binary op left right.value) right.rest
      .ok ⟨whole.value, whole.rest, by
        have := right.shorter
        have := whole.shorter
        simp; omega⟩
termination_by ts.length
decreasing_by
  have := right.shorter
  simp; omega

def chain (level : OpLevel) (operand : Parser) : Parser := fun ts => do
  let first ← operand ts
  let whole ← chainFrom level operand first.value first.rest
  .ok ⟨whole.value, whole.rest, by
    have := first.shorter
    have := whole.shorter
    omega⟩

/-- A whole expression, given the parser of its tightest operands. -/
def operation (unary : Parser) : Parser :=
  chain .or (chain .and (chain .equality (chain .relation unary)))

def readVariable? (name : Text) : Option (Except ReadError Expr) :=
  (variableDigits? name).map fun ds => (readDigits ds).map .variable

def ofName (name : Text) : Except ReadError Expr :=
  match Literal.ofName? name with
  | some v => .ok (.literal v)
  | none =>
    match readVariable? name with
    | some e => e
    | none => fail (.unknownIdentifier name)

/-- Literals, variables and groups; `nested` reads one level deeper. -/
def primary (nested : Parser) : Parser
  | [] => fail .unexpectedEnd
  | t :: rest =>
    match t.lexeme with
    | .punct .openParen => do
      let inner ← operation nested rest
      let after ← expect .closeParen inner.rest
      .ok ⟨inner.value, after.val, by
        have := inner.shorter
        have := after.property
        simp; omega⟩
    | .integer n => .ok ⟨.literal (.integer n), rest, by simp⟩
    | .decimal x => .ok ⟨.literal (.decimal x), rest, by simp⟩
    | .text s => .ok ⟨.literal (.text s), rest, by simp⟩
    | .name name => do
      let value ← ofName name
      .ok ⟨value, rest, by simp⟩
    | lexeme => fail (.unexpectedToken lexeme.kind t.pos)

/-- The rest of a call, after its opening parenthesis. -/
def callEnd (nested : Parser) (target : Expr) (name : Text) : Parser
  | [] => do
    let argument ← operation nested []
    let after ← expect .closeParen argument.rest
    .ok ⟨.callWith target name argument.value, after.val, by
      have := argument.shorter
      have := after.property
      omega⟩
  | t :: rest =>
    if t.lexeme = .punct .closeParen then .ok ⟨.call target name, rest, by simp⟩
    else do
      let argument ← operation nested (t :: rest)
      let after ← expect .closeParen argument.rest
      .ok ⟨.callWith target name argument.value, after.val, by
        have := argument.shorter
        have := after.property
        omega⟩

/-- A property or a call, after its dot. -/
def afterDot (allowed : Allowance) (nested : Parser) (target : Expr) : Parser
  | [] => fail (.expected .name .ending)
  | t :: rest =>
    match t.lexeme with
    | .name name =>
      if isHiddenProperty name then fail (.propertyRefused name)
      else
        match rest with
        | [] => .ok ⟨.member target name, [], by simp⟩
        | u :: inner =>
          if u.lexeme = .punct .openParen then
            if allowed.methods.contains name then do
              let call ← callEnd nested target name inner
              .ok ⟨call.value, call.rest, by
                have := call.shorter
                simp; omega⟩
            else fail (.methodRefused name)
          else .ok ⟨.member target name, u :: inner, by simp⟩
    | lexeme => fail (.expected .name lexeme.kind)

def key? : Lexeme → Option Key
  | .integer n => some (.integer n)
  | .text s => some (.text s)
  | _ => none

/-- The key of an indexing, after its opening bracket. -/
def afterBracket (n : Nat) : Parser
  | [] => fail .indexKey
  | t :: rest =>
    match key? t.lexeme with
    | none => fail .indexKey
    | some key => do
      let after ← expect .closeBracket rest
      .ok ⟨.index n key, after.val, by
        have := after.property
        simp; omega⟩

/-- One suffix of a target, if one follows. -/
def suffix? (allowed : Allowance) (nested : Parser) (target : Expr) (ts : List Token) :
    Option (Except ReadError (Parsed ts.length)) :=
  match ts with
  | [] => none
  | t :: rest =>
    match t.lexeme with
    | .punct .dot => some do
      let next ← afterDot allowed nested target rest
      .ok ⟨next.value, next.rest, by
        have := next.shorter
        simp; omega⟩
    | .punct .openBracket =>
      match target with
      | .variable n => some do
        let next ← afterBracket n rest
        .ok ⟨next.value, next.rest, by
          have := next.shorter
          simp; omega⟩
      | _ => some (fail .indexTarget)
    | _ => none

def suffixes (allowed : Allowance) (nested : Parser) (target : Expr) (ts : List Token) :
    Except ReadError (Parsed (ts.length + 1)) :=
  match suffix? allowed nested target ts with
  | none => .ok ⟨target, ts, by simp⟩
  | some step => do
    let next ← step
    let whole ← suffixes allowed nested next.value next.rest
    .ok ⟨whole.value, whole.rest, by
      have := next.shorter
      have := whole.shorter
      omega⟩
termination_by ts.length
decreasing_by exact next.shorter

def suffixed (allowed : Allowance) (nested : Parser) : Parser := fun ts => do
  let target ← primary nested ts
  let whole ← suffixes allowed nested target.value target.rest
  .ok ⟨whole.value, whole.rest, by
    have := target.shorter
    have := whole.shorter
    omega⟩

/-- A minus belongs to the number after it. -/
def afterMinus : Parser
  | [] => fail (.expected .number .ending)
  | t :: rest =>
    match t.lexeme with
    | .integer n => .ok ⟨.literal (.integer (-(n : Int))), rest, by simp⟩
    | .decimal x => .ok ⟨.literal (.decimal x.negate), rest, by simp⟩
    | lexeme => fail (.expected .number lexeme.kind)

def unaryWith (allowed : Allowance) (nested : Parser) : Parser
  | [] => suffixed allowed nested []
  | t :: rest =>
    match t.lexeme with
    | .punct .not => do
      let operand ← nested rest
      .ok ⟨.not operand.value, operand.rest, by
        have := operand.shorter
        simp; omega⟩
    | .punct .minus => do
      let number ← afterMinus rest
      .ok ⟨number.value, number.rest, by
        have := number.shorter
        simp; omega⟩
    | _ => suffixed allowed nested (t :: rest)

/-- An operand that may open `depth` more levels. -/
def unary (allowed : Allowance) : (depth : Nat) → Parser
  | 0 => unaryWith allowed fun _ => fail (.nestedTooDeeply allowed.depth)
  | depth + 1 => unaryWith allowed (unary allowed depth)

def parse (allowed : Allowance) (ts : List Token) : Except ReadError Expr := do
  let whole ← operation (unary allowed allowed.depth.value.toNat) ts
  match whole.rest with
  | [] => .ok whole.value
  | _ :: _ => fail .trailingTokens

/-- The expression that a text denotes. -/
def read (allowed : Allowance) (s : Text) : Except ReadError Expr := do
  let ts ← Token.lex s
  parse allowed ts

end BranchGate.Expr
