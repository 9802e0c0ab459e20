import BranchGate.Expr.Shape
import BranchGate.Proofs.Expr.Completeness
import Mathlib.Data.List.Forall2

/-! Two runs of a parser on tokens that are alike go in step: they fail for the same cause or answer
with trees of one shape. What a run takes has no overlong variable in it. -/
namespace BranchGate

theorem Token.Alike.cases {t t' : Token} (alike : Token.Alike t t') :
    (∃ a b, t.lexeme = .text a ∧ t'.lexeme = .text b) ∨
      t'.lexeme = t.lexeme ∧ ∀ data, t.lexeme ≠ .text data := by
  have same := alike.shape
  cases first : t.lexeme <;> cases second : t'.lexeme <;> simp_all [Lexeme.shape]

theorem Token.Alike.operator? {t t' : Token} (alike : Token.Alike t t') (level : Expr.OpLevel) :
    level.operator? t'.lexeme = level.operator? t.lexeme := by
  rcases alike.cases with ⟨a, b, first, second⟩ | ⟨same, _⟩
  · rw [first, second]
    cases level <;> rfl
  · rw [same]

theorem Token.Alike.kind {t t' : Token} (alike : Token.Alike t t') :
    t'.lexeme.kind = t.lexeme.kind := by
  rcases alike.cases with ⟨a, b, first, second⟩ | ⟨same, _⟩
  · rw [first, second]; rfl
  · rw [same]

theorem Token.Alike.punct {t t' : Token} (alike : Token.Alike t t') (p : Punct) :
    t'.lexeme = .punct p ↔ t.lexeme = .punct p := by
  rcases alike.cases with ⟨a, b, first, second⟩ | ⟨same, _⟩
  · simp [first, second]
  · rw [same]

namespace Expr

open Token (Alike)

/-- Two runs that come to the same: one failure, or trees of one shape with like tokens left. What
the first run took of its tokens is not overlong. -/
structure InStep (ts : List Token) {m n : Nat}
    (x : Except ReadError (Parsed m)) (y : Except ReadError (Parsed n)) : Prop where
  fails : ∀ {cause}, x = .error cause → y = .error cause
  answers : ∀ {r}, x = .ok r → ∃ r', y = .ok r' ∧ r.value.shape = r'.value.shape ∧
    List.Forall₂ Alike r.rest r'.rest ∧ ∀ t ∈ ts, t ∈ r.rest ∨ t.lexeme.isOverlong = false

/-- A parser that goes in step with itself on all tokens that are alike. -/
def Parallel (p : Parser) : Prop :=
  ∀ ⦃ts ts'⦄, List.Forall₂ Alike ts ts' → InStep ts (p ts) (p ts')

variable {ts ts' : List Token} {m n m' n' : Nat}

namespace InStep

theorem fail (cause : SyntaxError) :
    InStep ts (Expr.fail (α := Parsed m) cause) (Expr.fail (α := Parsed n) cause) :=
  ⟨fun failed => by cases failed; rfl, nofun⟩

theorem ok {e e' : Expr} {shorter : ts.length < m} {shorter' : ts'.length < n}
    (shape : e.shape = e'.shape) (alike : List.Forall₂ Alike ts ts') :
    InStep ts (.ok ⟨e, ts, shorter⟩) (.ok ⟨e', ts', shorter'⟩) := by
  refine ⟨nofun, ?_⟩
  rintro _ ⟨⟩
  exact ⟨_, rfl, shape, alike, fun t member => .inl member⟩

theorem cons {t : Token} {x : Except ReadError (Parsed m)} {y : Except ReadError (Parsed n)}
    (short : t.lexeme.isOverlong = false) (step : InStep ts x y) :
    InStep (t :: ts) x y := by
  refine ⟨step.fails, fun read => ?_⟩
  obtain ⟨r', read', shape, alike, taken⟩ := step.answers read
  exact ⟨r', read', shape, alike, List.forall_mem_cons.2 ⟨.inr short, taken⟩⟩

theorem bind {x : Except ReadError (Parsed m)} {y : Except ReadError (Parsed n)}
    {k : Parsed m → Except ReadError (Parsed m')} {k' : Parsed n → Except ReadError (Parsed n')}
    (first : InStep ts x y)
    (next : ∀ r r' : Parsed _, r.value.shape = r'.value.shape → List.Forall₂ Alike r.rest r'.rest →
      InStep r.rest (k r) (k' r')) :
    InStep ts (x >>= k) (y >>= k') := by
  constructor
  · intro cause failed
    rcases bind_eq_error.1 failed with failed | ⟨r, read, failed⟩
    · exact bind_eq_error.2 (.inl (first.fails failed))
    · obtain ⟨r', read', shape, alike, _⟩ := first.answers read
      exact bind_eq_error.2 (.inr ⟨r', read', (next r r' shape alike).fails failed⟩)
  · intro whole read
    obtain ⟨r, head, read⟩ := bind_eq_ok.1 read
    obtain ⟨r', head', shape, alike, taken⟩ := first.answers head
    obtain ⟨whole', read', shape', alike', taken'⟩ := (next r r' shape alike).answers read
    refine ⟨whole', bind_eq_ok.2 ⟨r', head', read'⟩, shape', alike', fun t member => ?_⟩
    exact (taken t member).elim (taken' t) .inr

/-- The last step of a parser only restates the bound on what is left. -/
theorem rebound {x : Except ReadError (Parsed m)} {y : Except ReadError (Parsed n)}
    (first : InStep ts x y) {shorter : ∀ r : Parsed m, r.rest.length < m'}
    {shorter' : ∀ r : Parsed n, r.rest.length < n'} :
    InStep ts (x >>= fun r => .ok ⟨r.value, r.rest, shorter r⟩)
      (y >>= fun r => .ok ⟨r.value, r.rest, shorter' r⟩) :=
  first.bind fun _ _ shape alike => .ok shape alike

theorem expect {p : Punct} (alike : List.Forall₂ Alike ts ts')
    {k : { rest : List Token // rest.length < ts.length } → Except ReadError (Parsed m)}
    {k' : { rest : List Token // rest.length < ts'.length } → Except ReadError (Parsed n)}
    (next : ∀ after after' : { rest : List Token // rest.length < _ },
      List.Forall₂ Alike after.val after'.val → InStep after.val (k after) (k' after')) :
    InStep ts (Expr.expect p ts >>= k) (Expr.expect p ts' >>= k') := by
  cases alike with
  | nil => exact fail _
  | @cons t t' ts ts' same alike =>
    by_cases isMark : t.lexeme = .punct p
    · have isMark' := (same.punct p).2 isMark
      simp only [Expr.expect, isMark, isMark', ↓reduceIte]
      exact .cons (by rw [isMark]; rfl) (next ⟨ts, _⟩ ⟨ts', _⟩ alike)
    · have isMark' := mt (same.punct p).1 isMark
      simp only [Expr.expect, isMark, isMark', ↓reduceIte, same.kind]
      exact fail _

end InStep

section Chain

variable {level : OpLevel} {operand : Parser}

theorem chainFrom_inStep (parallel : Parallel operand) {left left' : Expr}
    (shape : left.shape = left'.shape) (alike : List.Forall₂ Alike ts ts') :
    InStep ts (chainFrom level operand left ts) (chainFrom level operand left' ts') := by
  fun_induction chainFrom level operand left ts generalizing left' ts' with
  | case1 left =>
    cases alike
    rw [chainFrom]
    exact .ok shape .nil
  | case2 left t rest other =>
    cases alike with
    | cons same alike =>
      have other' := (same.operator? level).trans other
      rw [chainFrom]
      split
      next => exact .ok shape (.cons same alike)
      next op known => rw [other'] at known; cases known
  | case3 left t rest op known ih =>
    cases alike with
    | cons same alike =>
      have known' := (same.operator? level).trans known
      rw [chainFrom]
      split
      next none => rw [known'] at none; cases none
      next op' known'' =>
        cases known'.symm.trans known''
        obtain ⟨p, isMark, _⟩ := operator?_punct known
        refine .cons (by rw [isMark]; rfl) ((parallel alike).bind fun right right' shape' alike => ?_)
        have grown : (Expr.binary op left right.value).shape =
            (Expr.binary op left' right'.value).shape := by
          simp only [Expr.shape, shape, shape']
        exact (ih right grown alike).rebound

theorem chain_parallel (parallel : Parallel operand) :
    Parallel (chain level operand) := fun _ _ alike =>
  (parallel alike).bind fun _ _ shape alike => (chainFrom_inStep parallel shape alike).rebound

end Chain

theorem operation_parallel {unary : Parser} (parallel : Parallel unary) :
    Parallel (operation unary) :=
  chain_parallel (chain_parallel (chain_parallel (chain_parallel parallel)))

theorem ofName_short {name : Text} {e : Expr} (read : ofName name = .ok e) :
    (Lexeme.name name).isOverlong = false := by
  cases long : (Lexeme.name name).isOverlong with
  | false => rfl
  | true =>
    simp only [Lexeme.isOverlong, Option.any_eq_true, decide_eq_true_eq] at long
    obtain ⟨ds, known, beyond⟩ := long
    have free := ofName?_of_variable known
    simp [ofName, free, readVariable?, known, readDigits, beyond, Except.map] at read

theorem primary_parallel {nested : Parser} (parallel : Parallel nested) :
    Parallel (primary nested) := by
  intro ts ts' alike
  cases alike with
  | nil => exact .fail _
  | @cons t t' ts ts' same alike =>
    rcases same.cases with ⟨a, b, first, second⟩ | ⟨equal, code⟩
    · simp only [primary, first, second]
      exact .cons (by rw [first]; rfl) (.ok rfl alike)
    · cases shape : t.lexeme with
      | integer n | decimal x =>
        rw [shape] at equal
        simp only [primary, shape, equal]
        exact .cons (by rw [shape]; rfl) (.ok rfl alike)
      | text data => exact absurd shape (code data)
      | name name =>
        rw [shape] at equal
        simp only [primary, shape, equal]
        cases read : ofName name with
        | ok e => exact .cons (by rw [shape]; exact ofName_short read) (.ok rfl alike)
        | error cause => exact ⟨fun failed => by cases failed; rfl, fun read => by cases read⟩
      | punct p =>
        rw [shape] at equal
        cases p with
        | openParen =>
          simp only [primary, shape, equal]
          refine .cons (by rw [shape]; rfl) ((operation_parallel parallel alike).bind ?_)
          exact fun _ _ shape alike => .expect alike fun _ _ alike => .ok shape alike
        | _ =>
          simp only [primary, shape, equal, same.pos]
          exact .fail _

section Suffixes

variable {allowed : Allowance} {nested : Parser} {target target' : Expr}

theorem callEnd_inStep (parallel : Parallel nested)
    (shape : target.shape = target'.shape) (name : Text) (alike : List.Forall₂ Alike ts ts') :
    InStep ts (callEnd nested target name ts) (callEnd nested target' name ts') := by
  cases alike with
  | nil =>
    refine (operation_parallel parallel .nil).bind fun _ _ shape' alike => ?_
    exact .expect alike fun _ _ alike => .ok (by simp only [Expr.shape, shape, shape']) alike
  | @cons t t' ts ts' same alike =>
    by_cases closes : t.lexeme = .punct .closeParen
    · have closes' := (same.punct .closeParen).2 closes
      simp only [callEnd, closes, closes', ↓reduceIte]
      exact .cons (by rw [closes]; rfl) (.ok (by simp only [Expr.shape, shape]) alike)
    · have closes' := mt (same.punct .closeParen).1 closes
      simp only [callEnd, closes, closes', ↓reduceIte]
      refine (operation_parallel parallel (.cons same alike)).bind fun _ _ shape' alike => ?_
      exact .expect alike fun _ _ alike => .ok (by simp only [Expr.shape, shape, shape']) alike

/-- A name that is not hidden is no variable. -/
theorem isOverlong_property {name : Text} (shown : isHiddenProperty name = false) :
    (Lexeme.name name).isOverlong = false := by
  have none : variableDigits? name = none := by
    unfold variableDigits?
    split
    next => cases shown
    next => rfl
  simp [Lexeme.isOverlong, none]

theorem afterDot_inStep (parallel : Parallel nested) (shape : target.shape = target'.shape)
    (alike : List.Forall₂ Alike ts ts') :
    InStep ts (afterDot allowed nested target ts)
      (afterDot allowed nested target' ts') := by
  cases alike with
  | nil => exact .fail _
  | @cons t t' ts ts' same alike =>
    have member (name : Text) :
        (Expr.member target name).shape = (Expr.member target' name).shape := by
      simp only [Expr.shape, shape]
    rcases same.cases with ⟨a, b, first, second⟩ | ⟨equal, code⟩
    · simp only [afterDot, first, second]
      exact .fail _
    · cases isName : t.lexeme with
      | name name =>
        rw [isName] at equal
        simp only [afterDot, isName, equal]
        by_cases hidden : isHiddenProperty name = true
        · simp only [hidden]
          exact .fail _
        · have short := isOverlong_property (eq_false_of_ne_true hidden)
          simp only [hidden]
          refine .cons (by rw [isName]; exact short) ?_
          cases alike with
          | nil => exact .ok (member name) .nil
          | @cons u u' inner inner' same alike =>
            by_cases opens : u.lexeme = .punct .openParen
            · have opens' := (same.punct .openParen).2 opens
              by_cases granted : allowed.methods.contains name = true
              · simp only [opens, opens', granted, ↓reduceIte]
                exact .cons (by rw [opens]; rfl) (callEnd_inStep parallel shape name alike).rebound
              · simp only [opens, opens', granted, ↓reduceIte]
                exact .fail _
            · have opens' := mt (same.punct .openParen).1 opens
              simp only [opens, opens', ↓reduceIte]
              exact .ok (member name) (.cons same alike)
      | text data => exact absurd isName (code data)
      | integer | decimal | punct =>
        rw [isName] at equal
        simp only [afterDot, isName, equal]
        exact .fail _

theorem afterBracket_inStep (n : Nat) (alike : List.Forall₂ Alike ts ts') :
    InStep ts (afterBracket n ts) (afterBracket n ts') := by
  cases alike with
  | nil => exact .fail _
  | @cons t t' ts ts' same alike =>
    rcases same.cases with ⟨a, b, first, second⟩ | ⟨equal, code⟩
    · simp only [afterBracket, first, second, key?]
      exact .cons (by rw [first]; rfl) (.expect alike fun _ _ alike => .ok rfl alike)
    · cases shape : t.lexeme with
      | text data => exact absurd shape (code data)
      | integer k =>
        rw [shape] at equal
        simp only [afterBracket, shape, equal, key?]
        exact .cons (by rw [shape]; rfl) (.expect alike fun _ _ alike => .ok rfl alike)
      | decimal | punct | name =>
        rw [shape] at equal
        simp only [afterBracket, shape, equal, key?]
        exact .fail _

theorem shape_eq_variable {e e' : Expr} (shape : e.shape = e'.shape) {n : Nat} :
    e = .variable n ↔ e' = .variable n := by
  constructor
  · rintro rfl
    cases e' <;> simp_all [Expr.shape]
  · rintro rfl
    cases e <;> simp_all [Expr.shape]

/-- No suffix on either side, or one on both. -/
inductive SuffixInStep (ts : List Token) {m n : Nat} :
    Option (Except ReadError (Parsed m)) → Option (Except ReadError (Parsed n)) → Prop
  | none : SuffixInStep ts none none
  | some {x y} : InStep ts x y → SuffixInStep ts (some x) (some y)

theorem suffix?_inStep (allowed : Allowance) (parallel : Parallel nested)
    (shape : target.shape = target'.shape) (alike : List.Forall₂ Alike ts ts') :
    SuffixInStep ts (suffix? allowed nested target ts)
      (suffix? allowed nested target' ts') := by
  cases alike with
  | nil => exact .none
  | @cons t t' ts ts' same alike =>
    rcases same.cases with ⟨a, b, first, second⟩ | ⟨equal, code⟩
    · simp only [suffix?, first, second]
      exact .none
    · cases isMark : t.lexeme with
      | punct p =>
        rw [isMark] at equal
        have short : t.lexeme.isOverlong = false := by rw [isMark]; rfl
        cases p with
        | dot =>
          simp only [suffix?, isMark, equal]
          exact .some (.cons short (afterDot_inStep parallel shape alike).rebound)
        | openBracket =>
          simp only [suffix?, isMark, equal]
          cases isVariable : target with
          | «variable» n =>
            rw [(shape_eq_variable shape).1 isVariable]
            exact .some (.cons short (afterBracket_inStep n alike).rebound)
          | _ =>
            cases other : target' with
            | «variable» n => rw [(shape_eq_variable shape).2 other] at isVariable; cases isVariable
            | _ => exact .some (.fail _)
        | _ =>
          simp only [suffix?, isMark, equal]
          exact .none
      | integer | decimal | text | name =>
        rw [isMark] at equal
        simp only [suffix?, isMark, equal]
        exact .none

theorem suffixes_inStep (parallel : Parallel nested) (shape : target.shape = target'.shape)
    (alike : List.Forall₂ Alike ts ts') :
    InStep ts (suffixes allowed nested target ts)
      (suffixes allowed nested target' ts') := by
  fun_induction suffixes allowed nested target ts generalizing target' ts' with
  | case1 target ts none =>
    have both := suffix?_inStep allowed parallel shape alike
    rw [none] at both
    rw [suffixes]
    split
    next => exact .ok shape alike
    next step follows => rw [follows] at both; cases both
  | case2 target ts step follows ih =>
    have both := suffix?_inStep allowed parallel shape alike
    rw [follows] at both
    rw [suffixes]
    split
    next none => rw [none] at both; cases both
    next step' follows' =>
      rw [follows'] at both
      cases both with
      | some inStep =>
        exact inStep.bind fun next next' shape alike => (ih next shape alike).rebound

theorem suffixed_parallel (parallel : Parallel nested) :
    Parallel (suffixed allowed nested) := fun _ _ alike =>
  (primary_parallel parallel alike).bind fun _ _ shape alike =>
    (suffixes_inStep parallel shape alike).rebound

end Suffixes

theorem afterMinus_parallel : Parallel afterMinus := by
  intro ts ts' alike
  cases alike with
  | nil => exact .fail _
  | @cons t t' ts ts' same alike =>
    rcases same.cases with ⟨a, b, first, second⟩ | ⟨equal, code⟩
    · simp only [afterMinus, first, second]
      exact .fail _
    · cases shape : t.lexeme with
      | text data => exact absurd shape (code data)
      | integer | decimal =>
        rw [shape] at equal
        simp only [afterMinus, shape, equal]
        exact .cons (by rw [shape]; rfl) (.ok rfl alike)
      | punct | name =>
        rw [shape] at equal
        simp only [afterMinus, shape, equal]
        exact .fail _

theorem unaryWith_parallel {allowed : Allowance} {nested : Parser}
    (parallel : Parallel nested) :
    Parallel (unaryWith allowed nested) := by
  have plain : Parallel (suffixed allowed nested) :=
    suffixed_parallel parallel
  intro ts ts' alike
  cases alike with
  | nil => exact plain .nil
  | @cons t t' ts ts' same alike =>
    by_cases negates : t.lexeme = .punct .not
    · have negates' := (same.punct .not).2 negates
      simp only [unaryWith, negates, negates']
      refine .cons (by rw [negates]; rfl) ((parallel alike).bind fun _ _ shape alike => ?_)
      exact .ok (by simp only [Expr.shape, shape]) alike
    · by_cases negative : t.lexeme = .punct .minus
      · have negative' := (same.punct .minus).2 negative
        simp only [unaryWith, negative, negative']
        exact .cons (by rw [negative]; rfl) (afterMinus_parallel alike).rebound
      · have negates' := mt (same.punct .not).1 negates
        have negative' := mt (same.punct .minus).1 negative
        have both := plain (.cons same alike)
        simpa [unaryWith, negates, negative, negates', negative'] using both

theorem unary_parallel (allowed : Allowance) (depth : Nat) : Parallel (unary allowed depth) := by
  induction depth with
  | zero =>
    have none : Parallel fun _ => fail (.nestedTooDeeply allowed.depth) :=
      fun _ _ _ => .fail _
    exact unaryWith_parallel none
  | succ depth ih => exact unaryWith_parallel ih

theorem parse_inStep (allowed : Allowance) (alike : List.Forall₂ Alike ts ts') :
    (∀ cause, parse allowed ts = .error cause → parse allowed ts' = .error cause) ∧
      ∀ e, parse allowed ts = .ok e →
        (∃ e', parse allowed ts' = .ok e' ∧ e.shape = e'.shape) ∧
          ∀ t ∈ ts, t.lexeme.isOverlong = false := by
  have inStep := operation_parallel (unary_parallel allowed allowed.depth.value.toNat) alike
  constructor
  · intro cause failed
    rcases bind_eq_error.1 failed with failed | ⟨whole, read, failed⟩
    · exact bind_eq_error.2 (.inl (inStep.fails failed))
    · obtain ⟨⟨value', left', shorter'⟩, read', _, alike, _⟩ := inStep.answers read
      refine bind_eq_error.2 (.inr ⟨_, read', ?_⟩)
      -- Something is left over, and then on both sides.
      split at failed
      next => cases failed
      next rest _ left =>
        rw [left] at alike
        cases alike
        exact failed
  · intro e read
    obtain ⟨whole, read, finish⟩ := bind_eq_ok.1 read
    obtain ⟨whole', read', shape, alike, taken⟩ := inStep.answers read
    cases left : whole.rest with
    | cons => rw [left] at finish; cases finish
    | nil =>
      rw [left] at finish alike taken
      cases finish
      have left' : whole'.rest = [] := List.forall₂_nil_left_iff.1 alike
      refine ⟨⟨whole'.value, bind_eq_ok.2 ⟨whole', read', by rw [left']⟩, shape⟩, ?_⟩
      exact fun t member => (taken t member).resolve_left List.not_mem_nil

/-- A run that ends well has met no overlong variable. -/
theorem short_of_parse {allowed : Allowance} {e : Expr} (read : parse allowed ts = .ok e) :
    ∀ t ∈ ts, t.lexeme.isOverlong = false := by
  have same : List.Forall₂ Alike ts ts := List.forall₂_same.2 fun t _ => ⟨rfl, rfl⟩
  exact ((parse_inStep allowed same).2 e read).2

end Expr
end BranchGate
