import BranchGate.Expr.Grammar
import BranchGate.Proofs.Token.Lexed

/-! What the parsers take is derived by the grammar. Nesting is bounded strictly: an operand that
may open `depth` more levels reads below `depth + 1`, and one that may open none reads nothing. -/
namespace BranchGate

/-- A variable with more digits than a number may have. -/
def Lexeme.isOverlong : Lexeme → Bool
  | .name n => (variableDigits? n).any fun ds => digitLimit < ds.length
  | _ => false

namespace Expr

abbrev lexemes (ts : List Token) : List Lexeme := ts.map Token.lexeme

/-- An answer that was found in `ts`, after `front`: what it takes completes a derivation of its
tree, and only an overlong variable makes it complain about digits. -/
structure Takes (methods : List Text) (form : Form) (bound : Nat) (front : List Lexeme)
    (ts : List Token) {n : Nat} (x : Except ReadError (Parsed n)) : Prop where
  derives : ∀ {r}, x = .ok r → ∃ used d, ts = used ++ r.rest ∧ d < bound ∧
    Derives methods form (front ++ lexemes used) r.value d
  blames : ∀ {count}, x = .error (.tooManyDigits count) → ∃ t ∈ ts, t.lexeme.isOverlong = true

/-- A parser of one form, for nesting below a bound. -/
def Reads (methods : List Text) (form : Form) (bound : Nat) (p : Parser) : Prop :=
  ∀ ts, Takes methods form bound [] ts (p ts)

namespace Takes

variable {methods : List Text} {form form' : Form} {bound bound' m n d : Nat}
  {front front' : List Lexeme} {ts : List Token}

theorem fail (cause : SyntaxError) :
    Takes methods form bound front ts (Expr.fail (α := Parsed n) cause) :=
  ⟨nofun, nofun⟩

theorem ok {e : Expr} {shorter : ts.length < n} (low : d < bound)
    (derived : Derives methods form front e d) :
    Takes methods form bound front ts (.ok ⟨e, ts, shorter⟩) := by
  refine ⟨?_, nofun⟩
  rintro _ ⟨⟩
  exact ⟨[], d, rfl, low, by simpa using derived⟩

theorem cons {t : Token} {x : Except ReadError (Parsed n)}
    (takes : Takes methods form bound (front ++ [t.lexeme]) ts x) :
    Takes methods form bound front (t :: ts) x := by
  constructor
  · intro r read
    obtain ⟨used, d, split, low, derived⟩ := takes.derives read
    exact ⟨t :: used, d, congrArg (t :: ·) split, low, by simpa using derived⟩
  · intro count failed
    obtain ⟨u, member, long⟩ := takes.blames failed
    exact ⟨u, List.mem_cons_of_mem t member, long⟩

/-- One part read after another; the first part may have a form and a front of its own. -/
theorem bind {x : Except ReadError (Parsed m)} {k : Parsed m → Except ReadError (Parsed n)}
    (first : Takes methods form' bound' front' ts x)
    (next : ∀ r used d, d < bound' → Derives methods form' (front' ++ lexemes used) r.value d →
      Takes methods form bound (front ++ lexemes used) r.rest (k r)) :
    Takes methods form bound front ts (x >>= k) := by
  constructor
  · intro whole read
    obtain ⟨r, head, read⟩ := bind_eq_ok.1 read
    obtain ⟨used, d, split, low, derived⟩ := first.derives head
    obtain ⟨used', d', split', low', derived'⟩ := (next r used d low derived).derives read
    refine ⟨used ++ used', d', ?_, low', by simpa using derived'⟩
    calc ts = used ++ r.rest := split
      _ = used ++ (used' ++ whole.rest) := congrArg (used ++ ·) split'
      _ = used ++ used' ++ whole.rest := (List.append_assoc ..).symm
  · intro count failed
    rcases bind_eq_error.1 failed with failed | ⟨r, head, failed⟩
    · exact first.blames failed
    · obtain ⟨used, d, split, low, derived⟩ := first.derives head
      obtain ⟨u, member, long⟩ := (next r used d low derived).blames failed
      exact ⟨u, split ▸ List.mem_append_right used member, long⟩

theorem expect {p : Punct} {k : { rest : List Token // rest.length < ts.length } →
      Except ReadError (Parsed n)}
    (next : ∀ after, Takes methods form bound (front ++ [.punct p]) after.val (k after)) :
    Takes methods form bound front ts (Expr.expect p ts >>= k) := by
  cases ts with
  | nil => exact fail _
  | cons t rest =>
    simp only [Expr.expect]
    split
    next same =>
      have takes := next ⟨rest, by simp⟩
      rw [← same] at takes
      exact takes.cons
    next => exact fail _

end Takes

variable {methods : List Text} {bound : Nat}

theorem Reads.widen {form form' : Form} {p : Parser} (reads : Reads methods form bound p)
    (also : ∀ {lexs e d}, Derives methods form lexs e d → Derives methods form' lexs e d) :
    Reads methods form' bound p := by
  intro ts
  refine ⟨?_, (reads ts).blames⟩
  intro r read
  obtain ⟨used, d, split, low, derived⟩ := (reads ts).derives read
  exact ⟨used, d, split, low, also derived⟩

section Chain

variable {level : OpLevel} {levels : List OpLevel} {operand : Parser}

theorem chainFrom_takes (reads : Reads methods (.operators levels) bound operand)
    {left : Expr} {front : List Lexeme} {d : Nat} (ts : List Token) (low : d < bound)
    (derived : Derives methods (.operators (level :: levels)) front left d) :
    Takes methods (.operators (level :: levels)) bound front ts
      (chainFrom level operand left ts) := by
  fun_induction chainFrom level operand left ts generalizing front d with
  | case1 left => exact .ok low derived
  | case2 left t rest other => exact .ok low derived
  | case3 left t rest op known ih =>
    apply Takes.cons
    apply (reads rest).bind
    intro right used d' low' derived'
    have grown : Derives methods (.operators (level :: levels))
        (front ++ [t.lexeme] ++ lexemes used) (.binary op left right.value) (max d d') := by
      simpa using Derives.binary derived known derived'
    refine (ih right (Nat.max_lt.2 ⟨low, low'⟩) grown).bind ?_
    exact fun whole used d low derived => .ok low derived

theorem chain_reads (reads : Reads methods (.operators levels) bound operand) :
    Reads methods (.operators (level :: levels)) bound (chain level operand) := by
  intro ts
  apply (reads ts).bind
  intro first used d low derived
  exact (chainFrom_takes reads first.rest low (.tighter derived)).bind
    fun whole used' d' low' derived' => .ok low' derived'

end Chain

theorem operation_reads {unary : Parser} (reads : Reads methods .unary bound unary) :
    Reads methods (.operators OpLevel.all) bound (operation unary) := by
  have operand : Reads methods (.operators []) bound unary := reads.widen .operand
  exact chain_reads (chain_reads (chain_reads (chain_reads operand)))

theorem ofName_derives {name : Text} {e : Expr} (read : ofName name = .ok e) :
    Derives methods .primary [.name name] e 0 := by
  unfold ofName at read
  split at read
  next v reserved => cases read; exact .reserved reserved
  next =>
    unfold readVariable? at read
    cases digits : variableDigits? name with
    | none => simp [digits, fail] at read
    | some ds =>
      simp only [digits, Option.map_some] at read
      obtain ⟨n, converted, rfl⟩ := map_eq_ok.1 read
      obtain ⟨_, rfl⟩ := Token.readDigits_eq_ok converted
      exact .variable digits

theorem ofName_blames {name : Text} {count : Nat}
    (failed : ofName name = .error (.tooManyDigits count)) :
    (Lexeme.name name).isOverlong = true := by
  unfold ofName at failed
  split at failed
  next => cases failed
  next =>
    unfold readVariable? at failed
    cases digits : variableDigits? name with
    | none => simp [digits, fail] at failed
    | some ds =>
      simp only [digits, Option.map_some, readDigits] at failed
      split at failed
      next long => simpa [Lexeme.isOverlong, digits] using long
      next => cases failed

theorem primary_reads {nested : Parser} (reads : Reads methods .unary bound nested) :
    Reads methods .primary (bound + 1) (primary nested) := by
  intro ts
  cases ts with
  | nil => exact .fail _
  | cons t rest =>
    cases shape : t.lexeme with
    | integer n =>
      simp only [primary, shape]
      exact Takes.cons (.ok (Nat.succ_pos _) (by simpa [shape] using Derives.integer n))
    | decimal x =>
      simp only [primary, shape]
      exact Takes.cons (.ok (Nat.succ_pos _) (by simpa [shape] using Derives.decimal x))
    | text data =>
      simp only [primary, shape]
      exact Takes.cons (.ok (Nat.succ_pos _) (by simpa [shape] using Derives.text data))
    | name name =>
      simp only [primary, shape]
      cases read : ofName name with
      | ok e =>
        exact Takes.cons (.ok (Nat.succ_pos _) (by simpa [shape] using ofName_derives read))
      | error cause =>
        constructor
        · rintro r ⟨⟩
        · rintro count ⟨⟩
          exact ⟨t, List.mem_cons_self, shape ▸ ofName_blames read⟩
    | punct p =>
      cases p with
      | openParen =>
        simp only [primary, shape]
        apply Takes.cons
        apply (operation_reads reads rest).bind
        intro inner used d low derived
        apply Takes.expect
        intro after
        exact .ok (Nat.succ_lt_succ low) (by simpa [shape] using Derives.group derived)
      | _ => simp only [primary, shape]; exact .fail _

section Suffixes

variable {allowed : Allowance} {nested : Parser} {target : Expr} {front : List Lexeme} {d : Nat}

theorem callEnd_takes (reads : Reads allowed.methods .unary bound nested) {name : Text}
    (derived : Derives allowed.methods .suffixed front target d) (low : d < bound + 1)
    (property : isProperty name = true) (member : name ∈ allowed.methods) (ts : List Token) :
    Takes allowed.methods .suffixed (bound + 1)
      (front ++ [.punct .dot, .name name, .punct .openParen]) ts
      (callEnd nested target name ts) := by
  have full (inner : List Token) : Takes allowed.methods .suffixed (bound + 1)
      (front ++ [.punct .dot, .name name, .punct .openParen]) inner (do
        let argument ← operation nested inner
        let after ← Expr.expect .closeParen argument.rest
        .ok ⟨.callWith target name argument.value, after.val, by
          have := argument.shorter
          have := after.property
          omega⟩ : Except ReadError (Parsed inner.length)) := by
    apply (operation_reads reads inner).bind
    intro argument used d' low' inside
    apply Takes.expect
    intro after
    refine .ok (d := max d (d' + 1)) (Nat.max_lt.2 ⟨low, Nat.succ_lt_succ low'⟩) ?_
    simpa using Derives.callWith derived property member inside
  cases ts with
  | nil => exact full []
  | cons t rest =>
    simp only [callEnd]
    split
    next same =>
      exact Takes.cons (.ok low (by simpa [same] using Derives.call derived property member))
    next => exact full (t :: rest)

theorem afterDot_takes (reads : Reads allowed.methods .unary bound nested)
    (derived : Derives allowed.methods .suffixed front target d) (low : d < bound + 1)
    (ts : List Token) :
    Takes allowed.methods .suffixed (bound + 1) (front ++ [.punct .dot]) ts
      (afterDot allowed nested target ts) := by
  cases ts with
  | nil => exact .fail _
  | cons t rest =>
    cases shape : t.lexeme with
    | name name =>
      simp only [afterDot, shape]
      split
      next => exact .fail _
      next shown =>
        have property : isProperty name = true := by simpa [isProperty] using shown
        have member : Derives allowed.methods .suffixed (front ++ [.punct .dot] ++ [t.lexeme])
            (.member target name) d := by
          simpa [shape] using Derives.member derived property
        cases rest with
        | nil => exact Takes.cons (.ok low member)
        | cons u inner =>
          apply Takes.cons
          by_cases opens : u.lexeme = .punct .openParen
          · by_cases granted : allowed.methods.contains name = true
            · simp only [opens, granted, ↓reduceIte]
              apply Takes.cons
              rw [show front ++ [.punct .dot] ++ [t.lexeme] ++ [u.lexeme] =
                front ++ [.punct .dot, .name name, .punct .openParen] by simp [shape, opens]]
              exact (callEnd_takes reads derived low property (by simpa using granted) inner).bind
                fun whole used d low derived => .ok low derived
            · simp only [opens, granted, ↓reduceIte]
              exact .fail _
          · simp only [opens, ↓reduceIte]
            exact .ok low member
    | integer | decimal | text | punct => simp only [afterDot, shape]; exact .fail _

theorem afterBracket_takes {n : Nat}
    (derived : Derives methods .suffixed front (.variable n) d) (low : d < bound)
    (ts : List Token) :
    Takes methods .suffixed bound (front ++ [.punct .openBracket]) ts (afterBracket n ts) := by
  cases ts with
  | nil => exact .fail _
  | cons t rest =>
    simp only [afterBracket]
    split
    next => exact .fail _
    next key known =>
      refine Takes.cons (Takes.expect fun after => .ok low ?_)
      simpa using Derives.index derived known

theorem suffix?_takes (reads : Reads allowed.methods .unary bound nested)
    (derived : Derives allowed.methods .suffixed front target d) (low : d < bound + 1)
    {ts : List Token} {step : Except ReadError (Parsed ts.length)}
    (follows : suffix? allowed nested target ts = some step) :
    Takes allowed.methods .suffixed (bound + 1) front ts step := by
  cases ts with
  | nil => cases follows
  | cons t rest =>
    cases shape : t.lexeme with
    | punct p =>
      cases p with
      | dot =>
        simp only [suffix?, shape] at follows
        cases follows
        refine Takes.cons (shape ▸ ?_)
        exact (afterDot_takes reads derived low rest).bind
          fun next used d low derived => .ok low derived
      | openBracket =>
        simp only [suffix?, shape] at follows
        split at follows
        next n =>
          cases follows
          refine Takes.cons (shape ▸ ?_)
          exact (afterBracket_takes derived low rest).bind
            fun next used d low derived => .ok low derived
        next => cases follows; exact .fail _
      | _ => simp [suffix?, shape] at follows
    | integer | decimal | text | name => simp [suffix?, shape] at follows

theorem suffixes_takes (reads : Reads allowed.methods .unary bound nested) (ts : List Token)
    (derived : Derives allowed.methods .suffixed front target d) (low : d < bound + 1) :
    Takes allowed.methods .suffixed (bound + 1) front ts (suffixes allowed nested target ts) := by
  fun_induction suffixes allowed nested target ts generalizing front d with
  | case1 target ts none => exact .ok low derived
  | case2 target ts step follows ih =>
    apply (suffix?_takes reads derived low follows).bind
    intro next used d low derived
    exact (ih next derived low).bind fun whole used d low derived => .ok low derived

theorem suffixed_reads (reads : Reads allowed.methods .unary bound nested) :
    Reads allowed.methods .suffixed (bound + 1) (suffixed allowed nested) := by
  intro ts
  apply (primary_reads reads ts).bind
  intro target used d low derived
  exact (suffixes_takes reads target.rest (.ofPrimary derived) low).bind
    fun whole used d low derived => .ok low derived

end Suffixes

theorem afterMinus_takes {ts : List Token} :
    Takes methods .unary (bound + 1) [.punct .minus] ts (afterMinus ts) := by
  cases ts with
  | nil => exact .fail _
  | cons t rest =>
    cases shape : t.lexeme with
    | integer n =>
      simp only [afterMinus, shape]
      exact Takes.cons (.ok (Nat.succ_pos _) (by simpa [shape] using Derives.negativeInteger n))
    | decimal x =>
      simp only [afterMinus, shape]
      exact Takes.cons (.ok (Nat.succ_pos _) (by simpa [shape] using Derives.negativeDecimal x))
    | text | punct | name => simp only [afterMinus, shape]; exact .fail _

theorem unaryWith_reads {allowed : Allowance} {nested : Parser}
    (reads : Reads allowed.methods .unary bound nested) :
    Reads allowed.methods .unary (bound + 1) (unaryWith allowed nested) := by
  have plain : Reads allowed.methods .unary (bound + 1) (suffixed allowed nested) :=
    (suffixed_reads reads).widen .ofSuffixed
  intro ts
  cases ts with
  | nil => exact plain []
  | cons t rest =>
    simp only [unaryWith]
    split
    next shape =>
      refine Takes.cons ((reads rest).bind fun operand used d low derived => ?_)
      exact .ok (Nat.succ_lt_succ low) (by simpa [shape] using Derives.not derived)
    next shape =>
      refine Takes.cons (shape ▸ ?_)
      exact afterMinus_takes.bind fun number used d low derived => .ok low derived
    next => exact plain (t :: rest)

/-- An operand that may open `depth` levels. -/
theorem unary_reads (allowed : Allowance) (depth : Nat) :
    Reads allowed.methods .unary (depth + 1) (unary allowed depth) := by
  induction depth with
  | zero =>
    have none : Reads allowed.methods .unary 0 fun _ => fail (.nestedTooDeeply allowed.depth) :=
      fun ts => .fail _
    exact unaryWith_reads none
  | succ depth ih => exact unaryWith_reads ih

end Expr
end BranchGate
