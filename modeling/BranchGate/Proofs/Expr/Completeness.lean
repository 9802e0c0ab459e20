import BranchGate.Proofs.Expr.Soundness

/-! What the grammar derives, the parsers take. A derivation of a left operand or of a target is
followed up to the state of the loop that goes on from it, so the loops need no lookahead of
their own; what follows a finished part must not prolong it. -/
namespace BranchGate.Expr

/-- The answer is this tree, with these tokens left. -/
def Yields {n : Nat} (x : Except ReadError (Parsed n)) (e : Expr) (rest : List Token) : Prop :=
  ∃ shorter, x = .ok ⟨e, rest, shorter⟩

namespace Yields

variable {m n : Nat} {e e' : Expr} {rest rest' : List Token}

theorem ok {shorter : rest.length < n} : Yields (.ok ⟨e, rest, shorter⟩) e rest := ⟨shorter, rfl⟩

theorem bind {x : Except ReadError (Parsed m)} {k : Parsed m → Except ReadError (Parsed n)}
    (first : Yields x e rest) (next : ∀ shorter, Yields (k ⟨e, rest, shorter⟩) e' rest') :
    Yields (x >>= k) e' rest' := by
  obtain ⟨shorter, rfl⟩ := first
  exact next shorter

/-- The last step of a parser only restates the bound on what is left. -/
theorem rebound {x : Except ReadError (Parsed m)} (first : Yields x e rest)
    {shorter : ∀ r : Parsed m, r.rest.length < n} :
    Yields (x >>= fun r => .ok ⟨r.value, r.rest, shorter r⟩) e rest :=
  first.bind fun _ => ok

theorem expect {p : Punct} {t : Token} (same : t.lexeme = .punct p)
    {k : { after : List Token // after.length < (t :: rest).length } → Except ReadError (Parsed n)}
    (next : ∀ shorter, Yields (k ⟨rest, shorter⟩) e' rest') :
    Yields (Expr.expect p (t :: rest) >>= k) e' rest' := by
  rw [Expr.expect]
  simp only [same, ↓reduceIte]
  exact next _

end Yields

/-- Nothing at the head of these tokens goes on an operand or an operator of the levels. -/
def Stops (levels : List OpLevel) (rest : List Token) : Prop :=
  ∀ t ∈ rest.head?, (∀ level ∈ levels, level.operator? t.lexeme = none) ∧
    t.lexeme ≠ .punct .dot ∧ t.lexeme ≠ .punct .openBracket ∧ t.lexeme ≠ .punct .openParen

def chains (levels : List OpLevel) (unary : Parser) : Parser := levels.foldr chain unary

/-- The parser of one level further in. -/
def inner (allowed : Allowance) : Nat → Parser
  | 0 => fun _ => fail (.nestedTooDeeply allowed.depth)
  | depth + 1 => unary allowed depth

theorem unary_eq (allowed : Allowance) (depth : Nat) :
    unary allowed depth = unaryWith allowed (inner allowed depth) := by
  cases depth <;> rfl

theorem Stops.tighter {level : OpLevel} {levels : List OpLevel} {rest : List Token}
    (stops : Stops (level :: levels) rest) : Stops levels rest := by
  intro t head
  obtain ⟨operators, suffixes⟩ := stops t head
  exact ⟨fun l member => operators l (List.mem_cons_of_mem level member), suffixes⟩

/-- A sign belongs to one level only. -/
theorem operator?_unique {level level' : OpLevel} {sign : Lexeme} {op op' : BinOp}
    (known : level.operator? sign = some op) (known' : level'.operator? sign = some op') :
    level = level' := by
  unfold OpLevel.operator? at known known'
  split at known <;> split at known' <;> simp_all

theorem operator?_punct {level : OpLevel} {sign : Lexeme} {op : BinOp}
    (known : level.operator? sign = some op) : ∃ p, sign = .punct p ∧ p ≠ .dot ∧
      p ≠ .openBracket ∧ p ≠ .openParen ∧ p ≠ .closeParen := by
  unfold OpLevel.operator? at known
  split at known <;> first | exact ⟨_, rfl, by decide⟩ | cases known

theorem ne_punct_of_key {l : Lexeme} {key : Key} (known : key? l = some key) (p : Punct) :
    l ≠ .punct p := by
  rintro rfl
  cases known

theorem stops_operator {level : OpLevel} {levels : List OpLevel} {t : Token} {op : BinOp}
    {rest : List Token} (known : level.operator? t.lexeme = some op) (other : level ∉ levels) :
    Stops levels (t :: rest) := by
  rintro _ ⟨⟩
  obtain ⟨p, isPunct, dot, bracket, paren, _⟩ := operator?_punct known
  refine ⟨fun l member => ?_, by simp [isPunct, dot, bracket, paren]⟩
  cases same : l.operator? t.lexeme with
  | none => rfl
  | some op' => exact absurd (operator?_unique known same ▸ member) other

theorem stops_nil (levels : List OpLevel) : Stops levels [] := nofun

theorem stops_closeParen {levels : List OpLevel} {t : Token} {rest : List Token}
    (closes : t.lexeme = .punct .closeParen) : Stops levels (t :: rest) := by
  rintro _ ⟨⟩
  rw [closes]
  refine ⟨fun l _ => ?_, by decide, by decide, by decide⟩
  cases l <;> rfl

theorem chainFrom_stops {level : OpLevel} {levels : List OpLevel} {operand : Parser} {left : Expr}
    {rest : List Token} (stops : Stops (level :: levels) rest) :
    Yields (chainFrom level operand left rest) left rest := by
  cases rest with
  | nil => rw [chainFrom]; exact .ok
  | cons t rest =>
    have none := (stops t rfl).1 level List.mem_cons_self
    rw [chainFrom]
    split
    next => exact .ok
    next op known => rw [none] at known; cases known

theorem suffixes_stops {allowed : Allowance} {nested : Parser} {target : Expr}
    {rest : List Token} (stops : Stops [] rest) :
    Yields (suffixes allowed nested target rest) target rest := by
  have none : suffix? allowed nested target rest = none := by
    cases rest with
    | nil => rfl
    | cons t rest =>
      obtain ⟨_, dot, bracket, _⟩ := stops t rfl
      unfold suffix?
      split <;> simp_all
  rw [suffixes]
  split
  next => exact .ok
  next step follows => rw [none] at follows; cases follows

/-- How a derived list begins: never with a closing parenthesis, and the tighter forms with
neither a negation nor a minus. -/
theorem derives_head {methods : List Text} {form : Form} {lexs : List Lexeme} {e : Expr} {d : Nat}
    (derived : Derives methods form lexs e d) :
    ∃ l tail, lexs = l :: tail ∧ l ≠ .punct .closeParen ∧
      (form = .suffixed ∨ form = .primary → l ≠ .punct .not ∧ l ≠ .punct .minus) := by
  induction derived with
  | operand _ ih | tighter _ ih =>
    obtain ⟨l, tail, rfl, opens, _⟩ := ih
    exact ⟨l, tail, rfl, opens, by simp⟩
  | binary _ _ _ ih _ =>
    obtain ⟨l, tail, rfl, opens, _⟩ := ih
    exact ⟨l, _, rfl, opens, by simp⟩
  | ofSuffixed _ ih =>
    obtain ⟨l, tail, rfl, opens, _⟩ := ih
    exact ⟨l, tail, rfl, opens, by simp⟩
  | ofPrimary _ ih =>
    obtain ⟨l, tail, rfl, opens, plain⟩ := ih
    exact ⟨l, tail, rfl, opens, fun _ => plain (.inr rfl)⟩
  | member _ _ ih | call _ _ _ ih | callWith _ _ _ _ ih _ | index _ _ ih =>
    obtain ⟨l, tail, rfl, opens, plain⟩ := ih
    exact ⟨l, _, rfl, opens, fun _ => plain (.inl rfl)⟩
  | not | negativeInteger | negativeDecimal => exact ⟨_, _, rfl, by decide, by simp⟩
  | _ => exact ⟨_, _, rfl, by simp, by simp⟩

/-- The parser of a form takes these tokens as this tree, whatever comes after them. A loop that
could go on is left in the state in which it has read the tree. -/
def Accepts (allowed : Allowance) (depth : Nat) : Form → List Token → Expr → Prop
  | .operators [], ts, e => ∀ rest, Stops [] rest → Yields (unary allowed depth (ts ++ rest)) e rest
  | .operators (level :: levels), ts, e => ∀ rest, Stops levels rest → ∀ e' rest',
      Yields (chainFrom level (chains levels (unary allowed depth)) e rest) e' rest' →
      Yields (chains (level :: levels) (unary allowed depth) (ts ++ rest)) e' rest'
  | .unary, ts, e => ∀ rest, Stops [] rest → Yields (unary allowed depth (ts ++ rest)) e rest
  | .suffixed, ts, e => ∀ rest, (∀ t ∈ rest.head?, t.lexeme ≠ .punct .openParen) → ∀ e' rest',
      Yields (suffixes allowed (inner allowed depth) e rest) e' rest' →
      Yields (suffixed allowed (inner allowed depth) (ts ++ rest)) e' rest'
  | .primary, ts, e => ∀ rest, Yields (primary (inner allowed depth) (ts ++ rest)) e rest

theorem Accepts.stop {allowed : Allowance} {depth : Nat} {levels : List OpLevel}
    {ts : List Token} {e : Expr} (accepts : Accepts allowed depth (.operators levels) ts e)
    {rest : List Token} (stops : Stops levels rest) :
    Yields (chains levels (unary allowed depth) (ts ++ rest)) e rest := by
  cases levels with
  | nil => exact accepts rest stops
  | cons level levels => exact accepts rest stops.tighter e rest (chainFrom_stops stops)

section Steps

variable {allowed : Allowance} {depth : Nat} {ts : List Token} {e : Expr}

theorem Accepts.tighter {level : OpLevel} {levels : List OpLevel}
    (accepts : Accepts allowed depth (.operators levels) ts e) :
    Accepts allowed depth (.operators (level :: levels)) ts e := by
  intro rest stops e' rest' more
  exact (accepts.stop stops).bind fun _ => more.rebound

theorem Accepts.binary {level : OpLevel} {levels : List OpLevel} {sign : Token} {op : BinOp}
    {right : List Token} {r : Expr} (distinct : level ∉ levels)
    (first : Accepts allowed depth (.operators (level :: levels)) ts e)
    (known : level.operator? sign.lexeme = some op)
    (second : Accepts allowed depth (.operators levels) right r) :
    Accepts allowed depth (.operators (level :: levels)) (ts ++ sign :: right)
      (.binary op e r) := by
  intro rest stops e' rest' more
  rw [List.append_assoc, List.cons_append]
  refine first _ (stops_operator known distinct) e' rest' ?_
  rw [chainFrom]
  split
  next none => rw [known] at none; cases none
  next op' same =>
    cases known.symm.trans same
    exact (second.stop stops).bind fun _ => more.rebound

theorem Accepts.unary_of_suffixed {l : Token} {tail : List Token}
    (accepts : Accepts allowed depth .suffixed (l :: tail) e)
    (plain : l.lexeme ≠ .punct .not ∧ l.lexeme ≠ .punct .minus) :
    Accepts allowed depth .unary (l :: tail) e := by
  intro rest stops
  rw [unary_eq, List.cons_append, unaryWith]
  split
  next negated => exact absurd negated plain.1
  next negative => exact absurd negative plain.2
  next =>
    exact accepts rest (fun t head => (stops t head).2.2.2) e rest (suffixes_stops stops)

theorem suffixes_step {nested : Parser} {target e' : Expr} {rest mid rest' : List Token}
    (first : ∃ step, suffix? allowed nested target rest = some step ∧ Yields step e mid)
    (more : Yields (suffixes allowed nested e mid) e' rest') :
    Yields (suffixes allowed nested target rest) e' rest' := by
  obtain ⟨step, follows, first⟩ := first
  rw [suffixes]
  split
  next none => rw [follows] at none; cases none
  next step' same =>
    cases follows.symm.trans same
    exact first.bind fun _ => more.rebound

theorem suffix?_dot {nested : Parser} {target : Expr} {dot : Token} {rest mid : List Token}
    (isDot : dot.lexeme = .punct .dot)
    (first : Yields (afterDot allowed nested target rest) e mid) :
    ∃ step, suffix? allowed nested target (dot :: rest) = some step ∧ Yields step e mid := by
  simp only [suffix?, isDot]
  exact ⟨_, rfl, first.rebound⟩

theorem suffix?_bracket {nested : Parser} {n : Nat} {opens : Token} {rest mid : List Token}
    (isOpen : opens.lexeme = .punct .openBracket) (first : Yields (afterBracket n rest) e mid) :
    ∃ step, suffix? allowed nested (.variable n) (opens :: rest) = some step ∧
      Yields step e mid := by
  simp only [suffix?, isOpen]
  exact ⟨_, rfl, first.rebound⟩

/-- A suffix after a dot, read from a target. -/
theorem Accepts.dotted {target : Expr} {dot : Token} {tail : List Token}
    (isDot : dot.lexeme = .punct .dot) (accepts : Accepts allowed depth .suffixed ts target)
    (reads : ∀ rest, (∀ t ∈ rest.head?, t.lexeme ≠ .punct .openParen) →
      Yields (afterDot allowed (inner allowed depth) target (tail ++ rest)) e rest) :
    Accepts allowed depth .suffixed (ts ++ dot :: tail) e := by
  intro rest noCall e' rest' more
  rw [List.append_assoc, List.cons_append]
  refine accepts _ (by rintro _ ⟨⟩; rw [isDot]; decide) e' rest' ?_
  exact suffixes_step (suffix?_dot isDot (reads rest noCall)) more

theorem Accepts.member {target : Expr} {dot name : Token} {n : Text}
    (accepts : Accepts allowed depth .suffixed ts target) (isDot : dot.lexeme = .punct .dot)
    (isName : name.lexeme = .name n) (property : isProperty n = true) :
    Accepts allowed depth .suffixed (ts ++ [dot, name]) (.member target n) := by
  refine accepts.dotted isDot fun rest noCall => ?_
  have shown : isHiddenProperty n = false := by simpa [isProperty] using property
  simp only [List.cons_append, List.nil_append, afterDot, isName, shown]
  cases rest with
  | nil => exact .ok
  | cons t rest =>
    have other := noCall t rfl
    simp only [other, ↓reduceIte]
    exact .ok

/-- A call whose method is granted, up to its opening parenthesis. -/
theorem afterDot_call {nested : Parser} {target : Expr} {name opens : Token} {n : Text}
    {rest rest' : List Token} (isName : name.lexeme = .name n) (property : isProperty n = true)
    (isOpen : opens.lexeme = .punct .openParen) (member : n ∈ allowed.methods)
    (reads : Yields (callEnd nested target n rest) e rest') :
    Yields (afterDot allowed nested target (name :: opens :: rest)) e rest' := by
  have shown : isHiddenProperty n = false := by simpa [isProperty] using property
  have granted : allowed.methods.contains n = true := by simpa using member
  simp only [afterDot, isName, shown, isOpen, granted, ↓reduceIte]
  exact reads.rebound

theorem Accepts.call {target : Expr} {dot name opens closes : Token} {n : Text}
    (accepts : Accepts allowed depth .suffixed ts target) (isDot : dot.lexeme = .punct .dot)
    (isName : name.lexeme = .name n) (property : isProperty n = true)
    (member : n ∈ allowed.methods) (isOpen : opens.lexeme = .punct .openParen)
    (isClose : closes.lexeme = .punct .closeParen) :
    Accepts allowed depth .suffixed (ts ++ [dot, name, opens, closes]) (.call target n) := by
  refine accepts.dotted isDot fun rest _ => ?_
  have reads : Yields (callEnd (inner allowed depth) target n (closes :: rest)) (.call target n)
      rest := by
    rw [callEnd]
    simp only [isClose, ↓reduceIte]
    exact .ok
  exact afterDot_call isName property isOpen member reads

theorem Accepts.callWith {target a : Expr} {dot name opens closes l : Token} {n : Text}
    {tail : List Token} (accepts : Accepts allowed (depth + 1) .suffixed ts target)
    (isDot : dot.lexeme = .punct .dot) (isName : name.lexeme = .name n)
    (property : isProperty n = true) (member : n ∈ allowed.methods)
    (isOpen : opens.lexeme = .punct .openParen)
    (argument : Accepts allowed depth (.operators OpLevel.all) (l :: tail) a)
    (starts : l.lexeme ≠ .punct .closeParen) (isClose : closes.lexeme = .punct .closeParen) :
    Accepts allowed (depth + 1) .suffixed
      (ts ++ dot :: name :: opens :: (l :: tail ++ [closes])) (.callWith target n a) := by
  refine accepts.dotted isDot fun rest _ => ?_
  rw [show name :: opens :: (l :: tail ++ [closes]) ++ rest =
    name :: opens :: l :: (tail ++ closes :: rest) by simp]
  refine afterDot_call isName property isOpen member ?_
  rw [callEnd]
  simp only [starts, ↓reduceIte]
  exact (argument.stop (stops_closeParen isClose)).bind fun _ => .expect isClose fun _ => .ok

theorem Accepts.index {n : Nat} {opens sign closes : Token} {key : Key}
    (accepts : Accepts allowed depth .suffixed ts (.variable n))
    (isOpen : opens.lexeme = .punct .openBracket) (known : key? sign.lexeme = some key)
    (isClose : closes.lexeme = .punct .closeBracket) :
    Accepts allowed depth .suffixed (ts ++ [opens, sign, closes]) (.index n key) := by
  intro rest noCall e' rest' more
  rw [List.append_assoc]
  refine accepts _ (by rintro _ ⟨⟩; rw [isOpen]; decide) e' rest' ?_
  have reads : Yields (afterBracket n (sign :: closes :: rest)) (.index n key) rest := by
    rw [afterBracket]
    split
    next none => rw [known] at none; cases none
    next key' same =>
      cases known.symm.trans same
      exact Yields.expect isClose fun _ => .ok
  exact suffixes_step (suffix?_bracket isOpen reads) more

theorem Accepts.group {opens closes : Token}
    (accepts : Accepts allowed depth (.operators OpLevel.all) ts e)
    (isOpen : opens.lexeme = .punct .openParen) (isClose : closes.lexeme = .punct .closeParen) :
    Accepts allowed (depth + 1) .primary (opens :: (ts ++ [closes])) e := by
  intro rest
  rw [show opens :: (ts ++ [closes]) ++ rest = opens :: (ts ++ closes :: rest) by simp, primary]
  simp only [isOpen]
  exact (accepts.stop (stops_closeParen isClose)).bind fun _ => .expect isClose fun _ => .ok

theorem Accepts.not {sign : Token} (negates : sign.lexeme = .punct .not)
    (accepts : Accepts allowed depth .unary ts e) :
    Accepts allowed (depth + 1) .unary (sign :: ts) (.not e) := by
  intro rest stops
  rw [List.cons_append, unary_eq, unaryWith]
  simp only [negates]
  exact (accepts rest stops).bind fun _ => .ok

theorem accepts_negative {sign number : Token} {value : Literal}
    (negative : sign.lexeme = .punct .minus)
    (reads : ∀ rest, Yields (afterMinus (number :: rest)) (.literal value) rest) :
    Accepts allowed depth .unary [sign, number] (.literal value) := by
  intro rest stops
  rw [List.cons_append, unary_eq, unaryWith]
  simp only [negative]
  exact (reads rest).rebound

/-- No variable is a reserved name. -/
theorem ofName?_of_variable {name digits : Text} (known : variableDigits? name = some digits) :
    Literal.ofName? name = none := by
  unfold variableDigits? at known
  split at known
  next => simp [Literal.ofName?]
  next => cases known

theorem ofName_variable {name digits : Text} (known : variableDigits? name = some digits)
    (short : (Lexeme.name name).isOverlong = false) :
    ofName name = .ok (.variable (Text.toNat digits)) := by
  have free := ofName?_of_variable known
  have bound : ¬digitLimit < digits.length := by simpa [Lexeme.isOverlong, known] using short
  simp [ofName, free, readVariable?, known, readDigits, bound, Except.map]

theorem accepts_name {t : Token} {name : Text} (isName : t.lexeme = .name name)
    (read : ofName name = .ok e) : Accepts allowed depth .primary [t] e := by
  intro rest
  rw [List.cons_append, primary]
  simp only [isName, read]
  exact .ok

end Steps

/-- Levels of operators that are not repeated; the other forms have none. -/
def Form.Distinct : Form → Prop
  | .operators levels => levels.Nodup
  | _ => True

theorem distinct_all : (Form.operators OpLevel.all).Distinct := by
  show OpLevel.all.Nodup
  decide

/-- Tokens of some lexemes, none of them overlong. -/
structure Spelt (ts : List Token) (lexs : List Lexeme) : Prop where
  same : lexemes ts = lexs
  short : ∀ t ∈ ts, t.lexeme.isOverlong = false

namespace Spelt

variable {ts : List Token} {l : Lexeme} {lexs a b : List Lexeme}

theorem nil (spelt : Spelt ts []) : ts = [] := List.map_eq_nil_iff.1 spelt.same

theorem cons (spelt : Spelt ts (l :: lexs)) : ∃ t more, ts = t :: more ∧ t.lexeme = l ∧
    t.lexeme.isOverlong = false ∧ Spelt more lexs := by
  obtain ⟨t, more, rfl, head, tail⟩ := List.map_eq_cons_iff.1 spelt.same
  obtain ⟨short, shorts⟩ := List.forall_mem_cons.1 spelt.short
  exact ⟨t, more, rfl, head, short, tail, shorts⟩

theorem append (spelt : Spelt ts (a ++ b)) :
    ∃ left right, ts = left ++ right ∧ Spelt left a ∧ Spelt right b := by
  obtain ⟨left, right, rfl, first, second⟩ := List.map_eq_append_iff.1 spelt.same
  obtain ⟨shorts, shorts'⟩ := List.forall_mem_append.1 spelt.short
  exact ⟨left, right, rfl, ⟨first, shorts⟩, ⟨second, shorts'⟩⟩

end Spelt

theorem accepts_of_derives {allowed : Allowance} {form : Form} {lexs : List Lexeme} {e : Expr}
    {d : Nat} (derived : Derives allowed.methods form lexs e d) :
    ∀ depth ts, d ≤ depth → Spelt ts lexs → form.Distinct → Accepts allowed depth form ts e := by
  -- A group, a negation or an argument is derived with less nesting and read one level deeper,
  -- so the depth varies with the derivation.
  induction derived with
  | operand _ ih => exact fun depth ts low spelt _ => ih depth ts low spelt trivial
  | tighter _ ih =>
    intro depth ts low spelt distinct
    exact (ih depth ts low spelt (List.nodup_cons.1 distinct).2).tighter
  | binary _ known _ ihLeft ihRight =>
    intro depth ts low spelt distinct
    obtain ⟨left, _, rfl, speltLeft, rest⟩ := spelt.append
    obtain ⟨sign, right, rfl, rfl, _, speltRight⟩ := rest.cons
    obtain ⟨lowLeft, lowRight⟩ := Nat.max_le.1 low
    obtain ⟨other, distinct'⟩ := List.nodup_cons.1 distinct
    have first := ihLeft depth left lowLeft speltLeft distinct
    have second := ihRight depth right lowRight speltRight distinct'
    exact first.binary other known second
  | not _ ih =>
    intro depth ts low spelt _
    obtain ⟨sign, operand, rfl, negates, _, spelt⟩ := spelt.cons
    obtain ⟨depth, rfl⟩ : ∃ k, depth = k + 1 := ⟨depth - 1, by omega⟩
    exact (ih depth operand (Nat.le_of_succ_le_succ low) spelt trivial).not negates
  | negativeInteger n =>
    intro depth ts _ spelt _
    obtain ⟨sign, _, rfl, negative, _, spelt⟩ := spelt.cons
    obtain ⟨number, _, rfl, isNumber, _, spelt⟩ := spelt.cons
    rw [spelt.nil]
    apply accepts_negative negative
    intro rest
    simp only [afterMinus, isNumber]
    exact .ok
  | negativeDecimal x =>
    intro depth ts _ spelt _
    obtain ⟨sign, _, rfl, negative, _, spelt⟩ := spelt.cons
    obtain ⟨number, _, rfl, isNumber, _, spelt⟩ := spelt.cons
    rw [spelt.nil]
    apply accepts_negative negative
    intro rest
    simp only [afterMinus, isNumber]
    exact .ok
  | ofSuffixed derived ih =>
    intro depth ts low spelt _
    have accepts := ih depth ts low spelt trivial
    obtain ⟨l, tail, rfl, _, plain⟩ := derives_head derived
    obtain ⟨t, more, rfl, rfl, _⟩ := spelt.cons
    exact accepts.unary_of_suffixed (plain (.inl rfl))
  | ofPrimary _ ih =>
    intro depth ts low spelt _ rest _ e' rest' more
    exact (ih depth ts low spelt trivial rest).bind fun _ => more.rebound
  | member _ property ih =>
    intro depth ts low spelt _
    obtain ⟨target, _, rfl, speltTarget, spelt⟩ := spelt.append
    obtain ⟨dot, _, rfl, isDot, _, spelt⟩ := spelt.cons
    obtain ⟨name, _, rfl, isName, _, spelt⟩ := spelt.cons
    rw [spelt.nil]
    exact (ih depth target low speltTarget trivial).member isDot isName property
  | call _ property granted ih =>
    intro depth ts low spelt _
    obtain ⟨target, _, rfl, speltTarget, spelt⟩ := spelt.append
    obtain ⟨dot, _, rfl, isDot, _, spelt⟩ := spelt.cons
    obtain ⟨name, _, rfl, isName, _, spelt⟩ := spelt.cons
    obtain ⟨opens, _, rfl, isOpen, _, spelt⟩ := spelt.cons
    obtain ⟨closes, _, rfl, isClose, _, spelt⟩ := spelt.cons
    rw [spelt.nil]
    have accepts := ih depth target low speltTarget trivial
    exact accepts.call isDot isName property granted isOpen isClose
  | callWith _ property granted argument ih ihArgument =>
    intro depth ts low spelt _
    obtain ⟨target, _, rfl, speltTarget, spelt⟩ := spelt.append
    obtain ⟨dot, _, rfl, isDot, _, spelt⟩ := spelt.cons
    obtain ⟨name, _, rfl, isName, _, spelt⟩ := spelt.cons
    obtain ⟨opens, _, rfl, isOpen, _, spelt⟩ := spelt.cons
    obtain ⟨inner, _, rfl, speltInner, spelt⟩ := spelt.append
    obtain ⟨closes, _, rfl, isClose, _, spelt⟩ := spelt.cons
    rw [spelt.nil]
    obtain ⟨lowTarget, lowInner⟩ := Nat.max_le.1 low
    obtain ⟨depth, rfl⟩ : ∃ k, depth = k + 1 := ⟨depth - 1, by omega⟩
    have first := ih (depth + 1) target lowTarget speltTarget trivial
    have second := ihArgument depth inner (Nat.le_of_succ_le_succ lowInner) speltInner distinct_all
    obtain ⟨l, more, rfl, opening, _⟩ := derives_head argument
    obtain ⟨u, rest, rfl, rfl, _⟩ := speltInner.cons
    exact first.callWith isDot isName property granted isOpen second opening isClose
  | index _ known ih =>
    intro depth ts low spelt _
    obtain ⟨target, _, rfl, speltTarget, spelt⟩ := spelt.append
    obtain ⟨opens, _, rfl, isOpen, _, spelt⟩ := spelt.cons
    obtain ⟨sign, _, rfl, rfl, _, spelt⟩ := spelt.cons
    obtain ⟨closes, _, rfl, isClose, _, spelt⟩ := spelt.cons
    rw [spelt.nil]
    exact (ih depth target low speltTarget trivial).index isOpen known isClose
  | integer n | decimal x | text data =>
    intro depth ts _ spelt _ rest
    obtain ⟨t, _, rfl, shape, _, spelt⟩ := spelt.cons
    rw [spelt.nil, List.cons_append, primary]
    simp only [shape]
    exact .ok
  | reserved known =>
    intro depth ts _ spelt _
    obtain ⟨t, _, rfl, isName, _, spelt⟩ := spelt.cons
    rw [spelt.nil]
    exact accepts_name isName (by simp [ofName, known])
  | «variable» known =>
    intro depth ts _ spelt _
    obtain ⟨t, _, rfl, isName, bounded, spelt⟩ := spelt.cons
    rw [isName] at bounded
    rw [spelt.nil]
    exact accepts_name isName (ofName_variable known bounded)
  | group _ ih =>
    intro depth ts low spelt _
    obtain ⟨opens, _, rfl, isOpen, _, spelt⟩ := spelt.cons
    obtain ⟨inner, _, rfl, speltInner, spelt⟩ := spelt.append
    obtain ⟨closes, _, rfl, isClose, _, spelt⟩ := spelt.cons
    rw [spelt.nil]
    obtain ⟨depth, rfl⟩ : ∃ k, depth = k + 1 := ⟨depth - 1, by omega⟩
    have accepts := ih depth inner (Nat.le_of_succ_le_succ low) speltInner distinct_all
    exact accepts.group isOpen isClose

/-- A whole expression of these lexemes. -/
abbrev DerivesAll (methods : List Text) (lexs : List Lexeme) (e : Expr) (d : Nat) : Prop :=
  Derives methods (.operators OpLevel.all) lexs e d

theorem derives_of_parse {allowed : Allowance} {ts : List Token} {e : Expr}
    (read : parse allowed ts = .ok e) :
    ∃ d ≤ allowed.depth.value.toNat, DerivesAll allowed.methods (lexemes ts) e d := by
  obtain ⟨whole, read, finish⟩ := bind_eq_ok.1 read
  obtain ⟨used, d, split, low, derived⟩ :=
    (operation_reads (unary_reads allowed allowed.depth.value.toNat) ts).derives read
  split at finish
  next none =>
    cases finish
    rw [none, List.append_nil] at split
    subst split
    exact ⟨d, Nat.le_of_lt_succ low, derived⟩
  next => cases finish

theorem parse_of_derives {allowed : Allowance} {ts : List Token} {e : Expr} {d : Nat}
    (short : ∀ t ∈ ts, t.lexeme.isOverlong = false) (low : d ≤ allowed.depth.value.toNat)
    (derived : DerivesAll allowed.methods (lexemes ts) e d) : parse allowed ts = .ok e := by
  have accepts := accepts_of_derives derived _ ts low ⟨rfl, short⟩ distinct_all
  have reads := accepts.stop (stops_nil OpLevel.all)
  rw [List.append_nil] at reads
  obtain ⟨shorter, read⟩ := reads
  exact bind_eq_ok.2 ⟨_, read, rfl⟩

theorem parse_malformed {allowed : Allowance} {ts : List Token} {cause : ReadError}
    (short : ∀ t ∈ ts, t.lexeme.isOverlong = false) (failed : parse allowed ts = .error cause) :
    ∃ fault, cause = .malformed fault := by
  cases cause with
  | malformed fault => exact ⟨fault, rfl⟩
  | tooManyDigits count =>
    rcases bind_eq_error.1 failed with failed | ⟨whole, _, failed⟩
    · obtain ⟨t, member, long⟩ :=
        (operation_reads (unary_reads allowed allowed.depth.value.toNat) ts).blames failed
      rw [short t member] at long
      cases long
    · split at failed <;> cases failed

/-- Without overlong variables the parser accepts what the grammar derives within the nesting
allowed, as the one tree that is derived, and refuses everything else as malformed. -/
theorem parse_iff_derives (allowed : Allowance) (ts : List Token)
    (short : ∀ t ∈ ts, t.lexeme.isOverlong = false) :
    (∀ e, parse allowed ts = .ok e ↔
      ∃ d ≤ allowed.depth.value.toNat, DerivesAll allowed.methods (lexemes ts) e d) ∧
    (∀ e d e' d', DerivesAll allowed.methods (lexemes ts) e d →
      DerivesAll allowed.methods (lexemes ts) e' d' → e = e') ∧
    ((¬∃ e, ∃ d ≤ allowed.depth.value.toNat, DerivesAll allowed.methods (lexemes ts) e d) →
      ∃ fault, parse allowed ts = .error (.malformed fault)) := by
  have exact (e : Expr) : parse allowed ts = .ok e ↔
      ∃ d ≤ allowed.depth.value.toNat, DerivesAll allowed.methods (lexemes ts) e d :=
    ⟨derives_of_parse, fun ⟨_, low, derived⟩ => parse_of_derives short low derived⟩
  refine ⟨exact, ?_, ?_⟩
  · intro e d e' d' derived derived'
    -- A limit above both nestings makes the parser answer with both trees.
    let wide : Allowance := ⟨allowed.methods, .count (Int.ofNat (max d d'))⟩
    have low : d ≤ wide.depth.value.toNat := Nat.le_max_left d d'
    have low' : d' ≤ wide.depth.value.toNat := Nat.le_max_right d d'
    have read : parse wide ts = .ok e := parse_of_derives short low derived
    have read' : parse wide ts = .ok e' := parse_of_derives short low' derived'
    exact Except.ok.inj (read.symm.trans read')
  · intro underivable
    cases answer : parse allowed ts with
    | ok e => exact absurd ⟨e, derives_of_parse answer⟩ underivable
    | error cause =>
      obtain ⟨fault, rfl⟩ := parse_malformed short answer
      exact ⟨fault, rfl⟩

/-- A signed number in a negated group. -/
theorem parse_negated_group :
    ∃ ts, Token.lex ("!(__v0 === -1)" : String).toList = .ok ts ∧
      (∀ t ∈ ts, t.lexeme.isOverlong = false) ∧
      ∃ d ≤ 2, DerivesAll defaultMethods (lexemes ts)
        (.not (.binary .strictEq (.variable 0) (.literal (.integer (-1))))) d := by
  have lexed : Token.lex ("!(__v0 === -1)" : String).toList = .ok [
      ⟨.punct .not, ['!'], 0⟩, ⟨.punct .openParen, ['('], 1⟩,
      ⟨.name ("__v0" : String).toList, ("__v0" : String).toList, 2⟩,
      ⟨.punct .strictEq, ("===" : String).toList, 7⟩, ⟨.punct .minus, ['-'], 11⟩,
      ⟨.integer 1, ['1'], 12⟩, ⟨.punct .closeParen, [')'], 13⟩] :=
    eq_ok_of_toOption (by decide +kernel)
  refine ⟨_, lexed, by decide, ((parse_iff_derives ⟨defaultMethods, .count 2⟩ _ ?_).1 _).1 ?_⟩
  · decide
  · exact eq_ok_of_toOption (by decide +kernel)

end BranchGate.Expr
