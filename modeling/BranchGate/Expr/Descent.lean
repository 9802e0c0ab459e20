import BranchGate.Expr.Parser

/-! The descent of the parser, one step at a time: the routines that are open, innermost first, and
the counter of the nested blocks that they are in. No step does more than one of opening a routine,
closing one, entering a block and leaving one. -/
namespace BranchGate.Expr.Descent

/-- A routine of the parser, with what it was called with or has read so far. -/
inductive Task
  | whole
  | operation (level : OpLevel) (left : Option (Expr × BinOp))
  | unary
  | suffixed
  | call (target : Expr) (name : Text)
  | primary

namespace Task

/-- What the operands of a level are read by. -/
def operand : OpLevel → Task
  | .or => .operation .and none
  | .and => .operation .equality none
  | .equality => .operation .relation none
  | .relation => .unary

/-- What a routine calls from inside its block. -/
def inner : Task → Task
  | .unary => .unary
  | _ => .operation .or none

/-- What a routine makes, still inside its block, of the value it is given there. -/
def wrap : Task → Expr → Expr
  | .unary, e => .not e
  | _, e => e

def isUnary : Task → Bool
  | .unary => true
  | _ => false

end Task

/-- An open routine, inside its nested block or not. -/
structure Activation where
  task : Task
  inBlock : Bool

/-- What the innermost open routine meets: it goes on by itself, or what it called has given a value
or raised an error. -/
inductive Phase
  | going
  | gave (e : Expr)
  | raised (cause : ReadError)

structure State where
  phase : Phase
  opened : List Activation
  depth : Nat
  rest : List Token

namespace State

def start (ts : List Token) : State := ⟨.going, [⟨.whole, false⟩], 0, ts⟩

/-- The answer, once no routine is open. -/
def answer? : State → Option (Except ReadError Expr)
  | ⟨.gave e, [], _, _⟩ => some (.ok e)
  | ⟨.raised cause, [], _, _⟩ => some (.error cause)
  | _ => none

def calls (s : State) (task : Task) : State :=
  { s with phase := .going, opened := ⟨task, false⟩ :: s.opened }

def gives (s : State) (e : Expr) : State := { s with phase := .gave e, opened := s.opened.tail }

/-- The innermost routine goes on from a value that it has made itself. -/
def keeps (s : State) (e : Expr) : State := { s with phase := .gave e }

def raises (s : State) (cause : ReadError) : State := { s with phase := .raised cause }

/-- Enters the block of the innermost routine, unless the limit is reached. -/
def enters (s : State) (limit : Limit) : State :=
  if limit.value ≤ s.depth then s.raises (.malformed (.nestedTooDeeply limit))
  else
    { s with
      phase := .going
      opened := s.opened.modifyHead fun a => { a with inBlock := true }
      depth := s.depth + 1 }

/-- Leaves the block of the innermost routine, by a value or by an error. -/
def leaves (s : State) (phase : Phase) : State :=
  { s with
    phase
    opened := s.opened.modifyHead fun a => { a with inBlock := false }
    depth := s.depth - 1 }

end State

/-- A literal or a variable. -/
def atom (t : Token) : Except ReadError Expr :=
  match t.lexeme with
  | .integer n => .ok (.literal (.integer n))
  | .decimal x => .ok (.literal (.decimal x))
  | .text s => .ok (.literal (.text s))
  | .name name => ofName name
  | lexeme => fail (.unexpectedToken lexeme.kind t.pos)

/-- The name of a property or a method, after its dot. -/
def propertyName : List Token → Except ReadError (Text × List Token)
  | [] => fail (.expected .name .ending)
  | t :: rest =>
    match t.lexeme with
    | .name name =>
      if isHiddenProperty name then fail (.propertyRefused name) else .ok (name, rest)
    | lexeme => fail (.expected .name lexeme.kind)

/-- Whether the next token is this mark. -/
def isNext (p : Punct) (ts : List Token) : Bool :=
  match ts with
  | [] => false
  | t :: _ => t.lexeme == .punct p

/-- A routine that was just opened, up to its first call. -/
def begin (allowed : Allowance) (s : State) : Task → State
  | .whole => s.calls (.operation .or none)
  | .operation level _ => s.calls (.operand level)
  | .unary =>
    match s.rest with
    | [] => s.calls .suffixed
    | t :: rest =>
      match t.lexeme with
      | .punct .not => { s with rest }.enters allowed.depth
      | .punct .minus =>
        match afterMinus rest with
        | .ok number => { s with rest := number.rest }.gives number.value
        | .error cause => s.raises cause
      | _ => s.calls .suffixed
  | .suffixed => s.calls .primary
  | .call target name =>
    if allowed.methods.contains name then
      match expect .openParen s.rest with
      | .ok after =>
        if isNext .closeParen after then { s with rest := after.val.tail }.gives (.call target name)
        else { s with rest := after }.enters allowed.depth
      | .error cause => s.raises cause
    else s.raises (.malformed (.methodRefused name))
  | .primary =>
    match s.rest with
    | [] => s.raises (.malformed .unexpectedEnd)
    | t :: rest =>
      if t.lexeme = .punct .openParen then { s with rest }.enters allowed.depth
      else
        match atom t with
        | .ok e => { s with rest }.gives e
        | .error cause => s.raises cause

/-- The operand that a level has read, joined to what stands left of it. -/
def joined : Option (Expr × BinOp) → Expr → Expr
  | none, e => e
  | some (left, op), e => .binary op left e

/-- A routine outside its block that is given a value, up to its next call. -/
def resume (s : State) (e : Expr) : Task → State
  | .whole =>
    match s.rest with
    | [] => s.gives e
    | _ :: _ => s.raises (.malformed .trailingTokens)
  | .operation level left =>
    match s.rest with
    | [] => s.gives (joined left e)
    | t :: rest =>
      match level.operator? t.lexeme with
      | none => s.gives (joined left e)
      | some op =>
        let goesOn : Activation := ⟨.operation level (some (joined left e, op)), false⟩
        { s with opened := goesOn :: s.opened.tail, rest }.calls (.operand level)
  | .unary => s.gives e
  | .suffixed =>
    match s.rest with
    | [] => s.gives e
    | t :: rest =>
      match t.lexeme with
      | .punct .dot =>
        match propertyName rest with
        | .ok (name, after) =>
          if isNext .openParen after then { s with rest := after }.calls (.call e name)
          else { s with rest := after }.keeps (.member e name)
        | .error cause => s.raises cause
      | .punct .openBracket =>
        match e with
        | .variable n =>
          match afterBracket n rest with
          | .ok indexed => { s with rest := indexed.rest }.keeps indexed.value
          | .error cause => s.raises cause
        | _ => s.raises (.malformed .indexTarget)
      | _ => s.gives e
  | .call target name =>
    match expect .closeParen s.rest with
    | .ok after => { s with rest := after }.gives (.callWith target name e)
    | .error cause => s.raises cause
  | .primary =>
    match expect .closeParen s.rest with
    | .ok after => { s with rest := after }.gives e
    | .error cause => s.raises cause

/-- One step of the innermost open routine; none when no routine is open. -/
def next (allowed : Allowance) (s : State) : Option State :=
  match s.opened with
  | [] => none
  | a :: below =>
    some <| match s.phase, a.inBlock with
    | .going, false => begin allowed s a.task
    | .going, true => s.calls a.task.inner
    | .gave e, false => resume s e a.task
    | .gave e, true => s.leaves (.gave (a.task.wrap e))
    | .raised _, false => { s with opened := below }
    | .raised cause, true => s.leaves (.raised cause)

end BranchGate.Expr.Descent
