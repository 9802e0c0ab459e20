import BranchGate.Proofs.Gate.Steps
import BranchGate.Proofs.Token.Digits

/-! What the entry points answer with. Every refusal has a reason with content, and the only
failures that are no refusals come from a limit on index digits that cannot be looked for and from
a run of digits that cannot be converted. -/
namespace BranchGate

/-- A verdict that gives a reason when it refuses. -/
def Verdict.Reasoned : Verdict → Prop
  | .valid => True
  | .invalid reason => reason ≠ []

namespace Gate

/-- What breaks through the gate: a limit that cannot be written or looked for, or a number too long
to be converted. -/
inductive Breaks (config : Config) (s : Text) : Escape → Prop
  | limit : powerOfTen digitLimit ≤ config.maxIndexDigits.value.natAbs → Breaks config s .longLimit
  | repetition : Scan.repetitionBound ≤ config.maxIndexDigits.value →
      Breaks config s .repetitionTooLarge
  | digits {count} : Expr.read (allowance config) s = .error (.tooManyDigits count) → LongRun s →
      Breaks config s (.tooManyDigits count)

/-- A refusal has a reason with content, and anything else is known to break through. -/
inductive Explained (config : Config) (s : Text) : Failure → Prop
  | refused {cause} : cause.message ≠ [] → Explained config s (.rejected cause)
  | broken {cause} : Breaks config s cause → Explained config s (.escaped cause)

variable {config : Config} {s : Text} {f : Failure}

theorem denylist_message_ne_nil : ∀ rule ∈ denylist, rule.message ≠ [] := by decide

/-- A reason has content, whatever it is filled with; that of a rule is the table's. -/
theorem message_ne_nil {cause : Rejection} (listed : ∀ rule, cause = .denied rule → rule ∈ denylist) :
    cause.message ≠ [] := by
  cases cause with
  | denied rule => exact denylist_message_ne_nil rule (listed rule rfl)
  | brackets fault => cases fault <;> exact nofun
  | grammar => exact nofun
  | empty | tooLong | parentheses | method | identifier | stackExhausted => exact nofun

/-- The limit on index digits is positive, so all that can be wrong with it is its size. -/
theorem bracketFault_escapes {cause : Escape}
    (escapes : bracketFault config.maxIndexDigits s = .error cause) : Breaks config s cause := by
  have unwritten (long : Text.ofInt? config.maxIndexDigits.value = none) :
      powerOfTen digitLimit ≤ config.maxIndexDigits.value.natAbs :=
    Nat.le_of_not_lt fun short => by simpa [long] using Text.isSome_ofInt?.2 short
  by_cases small : config.maxIndexDigits.value < Scan.repetitionBound
  · rw [bracketFault_searchable config.maxIndexDigits_pos small] at escapes
    cases escapes
  · rw [bracketFault_unsearchable (Int.not_lt.1 small)] at escapes
    split_ifs at escapes with long
    · cases escapes
      exact .limit (unwritten long)
    · cases escapes
      exact .repetition (Int.not_lt.1 small)

theorem Fails.explained (fails : Fails config s f) : Explained config s f := by
  cases fails with
  | denied found =>
    exact .refused (message_ne_nil (by rintro _ ⟨⟩; exact List.mem_of_find?_eq_some found))
  | limit escapes => exact .broken (bracketFault_escapes escapes)
  | grammar read =>
    unfold grammarFailure
    split
    · exact .broken (.digits read (Expr.read_tooManyDigits read))
    · split <;> exact .refused (message_ne_nil nofun)
    · exact .refused (message_ne_nil nofun)
  | length | parentheses | brackets | method | identifier =>
    exact .refused (message_ne_nil nofun)

/-- What breaks through on an input is a text, blanks around it aside. -/
def BreaksInput (config : Config) (input : Value) (cause : Escape) : Prop :=
  ∃ t, input = .text t ∧ Breaks config (Text.trim t) cause

/-- A refusal with a reason, or a failure that breaks through. -/
def Answered (config : Config) (input : Value) (f : Failure) : Prop :=
  (∃ cause, f = .rejected cause ∧ cause.message ≠ []) ∨
    ∃ cause, f = .escaped cause ∧ BreaksInput config input cause

theorem compile_fails {input : Value} (failed : compile config input = .error f) :
    Answered config input f := by
  have empty : Rejection.empty.message ≠ [] := nofun
  cases input with
  | text t =>
    by_cases blank : Text.allBlank t = true
    · simp only [compile, blank, ↓reduceIte] at failed
      cases failed
      exact .inl ⟨_, rfl, empty⟩
    · simp only [compile, blank] at failed
      cases (compileTrimmed_fails f failed).explained with
      | refused reason => exact .inl ⟨_, rfl, reason⟩
      | broken breaks => exact .inr ⟨_, rfl, t, rfl, breaks⟩
  | _ => cases failed; exact .inl ⟨_, rfl, empty⟩

theorem validate_answers (config : Config) (input : Value) :
    (∃ verdict, validate config input = .ok verdict ∧ verdict.Reasoned) ∨
      ∃ cause, validate config input = .error cause ∧ BreaksInput config input cause := by
  unfold validate
  cases answer : compile config input with
  | ok e => exact .inl ⟨.valid, rfl, trivial⟩
  | error f =>
    rcases compile_fails answer with ⟨cause, rfl, reason⟩ | ⟨cause, rfl, breaks⟩
    · exact .inl ⟨.invalid cause.message, rfl, reason⟩
    · exact .inr ⟨cause, rfl, breaks⟩

theorem keywordRules_message_ne_nil : ∀ rule ∈ keywordRules, rule.message ≠ [] := by decide

theorem preValidate_reasoned (input : Value) : (preValidate input).Reasoned := by
  have empty : emptyInput ≠ [] := nofun
  unfold preValidate
  split
  next => exact empty
  next t _ =>
    split
    next rule found => exact keywordRules_message_ne_nil rule (List.mem_of_find?_eq_some found)
    next => trivial
  next => exact empty

theorem ensureValid_fails {input : Value} (failed : ensureValid config input = .error f) :
    Answered config input f := by
  cases input with
  | text t =>
    cases answer : compile config (.text t) with
    | ok e => simp [ensureValid, answer, Except.map] at failed
    | error g =>
      simp only [ensureValid, answer, Except.map] at failed
      cases failed
      exact compile_fails answer
  | _ => cases failed; exact .inl ⟨_, rfl, nofun⟩

/-- No entry point fails but by a refusal with a reason, unless the limit on index digits cannot
be looked for or the text has too many digits in a row; the pre-check never fails. -/
theorem boundary_answers (config : Config) (input : Value) :
    (preValidate input).Reasoned ∧
    ((∃ verdict, validate config input = .ok verdict ∧ verdict.Reasoned) ∨
      ∃ cause, validate config input = .error cause ∧ BreaksInput config input cause) ∧
    (∀ f, compile config input = .error f → Answered config input f) ∧
    ∀ f, ensureValid config input = .error f → Answered config input f :=
  ⟨preValidate_reasoned input, validate_answers config input, fun _ => compile_fails,
    fun _ => ensureValid_fails⟩

/-- A configuration that is built although its limit on index digits cannot be looked for. -/
def unsearchable : Config :=
  { Config.default with maxIndexDigits := .count 4294967295, maxIndexDigits_pos := by decide }

/-- The limit breaks through on a text without any index. -/
theorem boundary_breaks : ¬∀ config input,
    (∃ verdict, validate config input = .ok verdict ∧ verdict.Reasoned) ∧
      ∀ f, compile config input = .error f → ∃ cause, f = .rejected cause := by
  intro answers
  have escapes : validate unsearchable (.text ['1']) = .error .repetitionTooLarge := rfl
  obtain ⟨⟨verdict, answer, _⟩, _⟩ := answers unsearchable (.text ['1'])
  rw [escapes] at answer
  cases answer

end Gate
end BranchGate
