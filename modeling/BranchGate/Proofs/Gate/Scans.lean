import BranchGate.Proofs.Expr.Adjacency
import BranchGate.Proofs.Gate.Steps
import BranchGate.Proofs.Scan.Words

/-! The method and identifier scans against the grammar. A text that reads has no word and no
call that the scans would stop at, so the gate accepts the same conditions without them. -/
namespace BranchGate

namespace Expr

variable {methods : List Text}

theorem calledIn_granted {lexs : List Lexeme} (chain : lexs.IsChain (Adjacent methods)) :
    ∀ n ∈ Scan.calledIn lexs, n ∈ methods := by
  fun_induction Scan.calledIn lexs with
  | case1 => exact nofun
  | case2 rest ih =>
    have tail := chain.tail
    intro n member
    rcases List.mem_append.1 member with called | later
    · obtain ⟨name, rfl⟩ : ∃ name, rest = .name n :: .punct .openParen :: name := by
        unfold Scan.calledName at called
        split at called <;> simp_all
      exact (List.isChain_cons_cons.1 tail).1.2 n rfl rfl
    · exact ih tail n later
  | case3 first rest _ ih => exact ih chain.tail

/-- A name of a tidy list, with what stands before it. -/
theorem Tidy.before_name {l r : List Lexeme} {n : Text} (tidy : Tidy methods (l ++ .name n :: r)) :
    l.getLast? = some (.punct .dot) ∨ IsKnown n := by
  cases last : l.getLast? with
  | none =>
    rw [List.getLast?_eq_none_iff.1 last] at tidy
    exact .inr (tidy.head n rfl)
  | some first =>
    have next := (List.isChain_append.1 tidy.adjacent).2.2 first last (.name n) rfl
    exact (next.1 n rfl).imp_left (congrArg some)

end Expr

section Scans

variable {methods : List Text} {t : Text} {ts : List Token}

theorem foreignMethod?_of_tidy (laid : Token.Lexed 0 t ts)
    (tidy : Expr.Tidy methods (ts.map Token.lexeme)) : Scan.foreignMethod? methods t = none := by
  rw [Scan.foreignMethod?, laid.calledNames, List.find?_eq_none]
  intro name member
  simpa using Expr.calledIn_granted tidy.adjacent name member

theorem strayIdentifier?_of_tidy (laid : Token.Lexed 0 t ts)
    (tidy : Expr.Tidy methods (ts.map Token.lexeme)) : Scan.strayIdentifier? t = none := by
  rw [Scan.strayIdentifier?, Option.map_eq_none_iff, List.find?_eq_none, Scan.words,
    laid.wordsFrom]
  intro word member
  obtain ⟨tok, inside, rfl⟩ := List.mem_map.1 member
  obtain ⟨inside, named⟩ := List.mem_filter.1 inside
  obtain ⟨n, isName⟩ := Token.isNamed_eq_true.1 named
  have spells := laid.spells tok inside
  rw [isName] at spells
  obtain ⟨l, r, rfl⟩ := List.append_of_mem inside
  rw [List.map_append, List.map_cons, isName] at tidy
  simp only [Scan.Word.stray, List.append_nil, Nat.sub_zero, laid.afterDot_at,
    spells.name_source.1]
  rcases tidy.before_name with dot | literal | «variable»
  · rw [List.getLast?_map] at dot
    obtain ⟨last, isLast, isDot⟩ := Option.map_eq_some_iff.1 dot
    simp [isLast, isDot]
  · simp [literal]
  · simp [«variable»]

theorem scans_of_read {allowed : Expr.Allowance} {e : Expr} (read : Expr.read allowed t = .ok e) :
    Scan.foreignMethod? allowed.methods t = none ∧ Scan.strayIdentifier? t = none := by
  obtain ⟨ts, lexed, parsed⟩ := bind_eq_ok.1 read
  obtain ⟨d, _, derived⟩ := Expr.derives_of_parse parsed
  have tidy := Expr.derives_tidy derived
  have laid := Token.lexed_of_lex lexed
  exact ⟨foreignMethod?_of_tidy laid tidy, strayIdentifier?_of_tidy laid tidy⟩

end Scans

namespace Gate

/-- The steps without the two scans, for a trimmed text with content. -/
def compileTrimmedUnscanned (config : Config) (t : Text) : Except Failure Expr := do
  checkLength config t
  checkDenylist t
  checkParentheses t
  checkBrackets config t
  readTree config t

def compileUnscanned (config : Config) : Value → Except Failure Expr
  | .text t =>
    if Text.allBlank t then reject .empty else compileTrimmedUnscanned config (Text.trim t)
  | _ => reject .empty

theorem compileTrimmed_iff (config : Config) (t : Text) (e : Expr) :
    compileTrimmed config t = .ok e ↔ compileTrimmedUnscanned config t = .ok e := by
  simp only [compileTrimmed_eq_ok, compileTrimmedUnscanned, check_eq_ok, checkLength_eq_ok,
    checkDenylist_eq_ok, checkParentheses_eq_ok, checkBrackets_eq_ok, readTree_eq_ok]
  constructor
  · rintro ⟨length, denied, parentheses, brackets, _, _, read⟩
    exact ⟨length, denied, parentheses, brackets, read⟩
  · rintro ⟨length, denied, parentheses, brackets, read⟩
    obtain ⟨methods, identifiers⟩ := scans_of_read read
    exact ⟨length, denied, parentheses, brackets, methods, identifiers, read⟩

/-- What the grammar accepts, the scans pass; leaving them out changes no answer with a tree. -/
theorem scans_agree_with_grammar :
    (∀ allowed t e, Expr.read allowed t = .ok e →
      Scan.foreignMethod? allowed.methods t = none ∧ Scan.strayIdentifier? t = none) ∧
    ∀ config input e, compile config input = .ok e ↔ compileUnscanned config input = .ok e := by
  refine ⟨fun allowed t e read => scans_of_read read, ?_⟩
  intro config input e
  cases input with
  | text t =>
    by_cases blank : Text.allBlank t = true
    · simp only [compile, compileUnscanned, blank]
      rfl
    · simp only [compile, compileUnscanned, blank]
      exact compileTrimmed_iff config (Text.trim t) e
  | _ => rfl

/-- A call in a string is none. -/
theorem scans_pass_quoted_call :
    (∃ e, Expr.read ⟨defaultMethods, .count 1⟩ ("__v0 .trim( ) == 'x.f(y)'" : String).toList =
        .ok e) ∧
      Scan.foreignMethod? defaultMethods ("__v0 .trim( ) == 'x.f(y)'" : String).toList = none ∧
      Scan.strayIdentifier? ("__v0 .trim( ) == 'x.f(y)'" : String).toList = none := by
  have read : Expr.read ⟨defaultMethods, .count 1⟩ ("__v0 .trim( ) == 'x.f(y)'" : String).toList =
      .ok (.binary .looseEq (.call (.variable 0) ("trim" : String).toList)
        (.literal (.text ("x.f(y)" : String).toList))) := eq_ok_of_toOption (by decide +kernel)
  exact ⟨⟨_, read⟩, scans_agree_with_grammar.1 _ _ _ read⟩

end Gate
end BranchGate
