import BranchGate.Proofs.Gate.Steps

/-! What a validation notes. Each step decides by itself on the trimmed text; the first one that
refuses is noted, with the code of a rule and the length of the text and with nothing else of it. -/
namespace BranchGate

namespace Step

def order : List Step :=
  [.length, .denylist, .parentheses, .brackets, .methods, .identifiers, .grammar]

/-- The steps before one. -/
def earlier (step : Step) : List Step := order.takeWhile (· != step)

/-- The step, taken by itself, refuses this trimmed text. -/
def Refuses (config : Config) (t : Text) : Step → Prop
  | .length => config.maxLength.value < t.length
  | .denylist => ∃ rule ∈ BranchGate.denylist, rule.applies t = true
  | .parentheses => Scan.parenthesesBalance t = false
  | .brackets => ∃ fault, Gate.bracketFault config.maxIndexDigits t = .ok (some fault)
  | .methods => ∃ name, Scan.foreignMethod? config.methods t = some name
  | .identifiers => ∃ name, Scan.strayIdentifier? t = some name
  | .grammar => ∃ cause, Expr.read (Gate.allowance config) t = .error (.malformed cause)

def RefusesFirst (config : Config) (t : Text) (step : Step) : Prop :=
  step.Refuses config t ∧ ∀ other ∈ step.earlier, ¬ other.Refuses config t

/-- The code that is noted: of the first rule that applies, and none at other steps. -/
def code? (t : Text) : Step → Option Text
  | .denylist => (Rule.first? BranchGate.denylist t).map Rule.code
  | _ => none

/-- What a check says is what the step decides. -/
def DecidedBy {α : Type} (config : Config) (t : Text) (step : Step) : Except Failure α → Prop
  | .ok _ => ¬ step.Refuses config t
  | .error (.rejected cause) => step.Refuses config t ∧ cause.code? = step.code? t
  | .error (.escaped _) => True

theorem mem_earlier (a b : Step) : a = b ∨ a ∈ b.earlier ∨ b ∈ a.earlier := by
  cases a <;> cases b <;> decide

/-- There is one first step that refuses. -/
theorem RefusesFirst.unique {config : Config} {t : Text} {a b : Step}
    (first : a.RefusesFirst config t) (first' : b.RefusesFirst config t) : a = b := by
  rcases mem_earlier a b with same | before | after
  · exact same
  · exact absurd first.1 (first'.2 a before)
  · exact absurd first'.1 (first.2 b after)

end Step

namespace Gate

variable {config : Config} {t : Text}

theorem decidedBy_checkLength : Step.length.DecidedBy config t (checkLength config t) := by
  unfold checkLength
  split
  next long => exact ⟨long, rfl⟩
  next short => exact short

theorem decidedBy_checkDenylist : Step.denylist.DecidedBy config t (checkDenylist t) := by
  unfold checkDenylist
  split
  next rule found =>
    have first := found
    rw [Rule.first?] at first
    have applies := List.find?_some first
    refine ⟨⟨rule, List.mem_of_find?_eq_some first, applies⟩, ?_⟩
    simp [Step.code?, found, Rejection.code?]
  next none =>
    rintro ⟨rule, member, applies⟩
    exact List.find?_eq_none.1 none rule member applies

theorem decidedBy_checkParentheses : Step.parentheses.DecidedBy config t (checkParentheses t) := by
  unfold checkParentheses
  split
  next balanced => simp [Step.DecidedBy, Step.Refuses, balanced]
  next unbalanced => exact ⟨by simpa [Step.Refuses] using unbalanced, rfl⟩

theorem decidedBy_checkBrackets : Step.brackets.DecidedBy config t (checkBrackets config t) := by
  unfold checkBrackets
  split
  next passes => simp [Step.DecidedBy, Step.Refuses, passes]
  next fault found => exact ⟨⟨fault, found⟩, rfl⟩
  next => trivial

theorem decidedBy_checkMethods : Step.methods.DecidedBy config t (checkMethods config t) := by
  unfold checkMethods
  split
  next name found => exact ⟨⟨name, found⟩, rfl⟩
  next none => simp [Step.DecidedBy, Step.Refuses, none]

theorem decidedBy_checkIdentifiers : Step.identifiers.DecidedBy config t (checkIdentifiers t) := by
  unfold checkIdentifiers
  split
  next name found => exact ⟨⟨name, found⟩, rfl⟩
  next none => simp [Step.DecidedBy, Step.Refuses, none]

theorem grammarFailure_malformed (config : Config) (cause : SyntaxError) :
    ∃ rejection, grammarFailure config (.malformed cause) = .rejected rejection ∧
      rejection.code? = none := by
  cases cause with
  | nestedTooDeeply limit =>
    simp only [grammarFailure]
    split
    · exact ⟨_, rfl, rfl⟩
    · exact ⟨_, rfl, rfl⟩
  | _ => exact ⟨_, rfl, rfl⟩

theorem decidedBy_readTree : Step.grammar.DecidedBy config t (readTree config t) := by
  unfold readTree
  cases answer : Expr.read (allowance config) t with
  | ok e => simp [Step.DecidedBy, Step.Refuses, answer, Except.mapError]
  | error cause =>
    cases cause with
    | tooManyDigits count => trivial
    | malformed cause =>
      obtain ⟨rejection, same, code⟩ := grammarFailure_malformed config cause
      rw [Except.mapError, same]
      exact ⟨⟨cause, answer⟩, code⟩

/-- What a pass over the steps leaves: one notice of the first step that refused, where one did. -/
def Accounted (config : Config) (t : Text) : Except Failure Expr × List Notice → Prop
  | (.error (.rejected _), notices) =>
    ∃ step : Step, step.RefusesFirst config t ∧
      notices = [.rejected step (step.code? t) t.length]
  | (_, notices) => notices = []

/-- One step, after steps that all passed. -/
theorem accounted_noting {α : Type} {step : Step} {check : Except Failure α} {next : α → Noting Expr}
    (decided : step.DecidedBy config t check)
    (passed : ∀ other ∈ step.earlier, ¬ other.Refuses config t)
    (more : ∀ a, (∀ other ∈ step.earlier ++ [step], ¬ other.Refuses config t) →
      Accounted config t ((next a).run.run [])) :
    Accounted config t ((noting step t check >>= next).run.run []) := by
  cases check with
  | ok a =>
    refine more a fun other member => ?_
    rcases List.mem_append.1 member with before | last
    · exact passed other before
    · rw [List.mem_singleton.1 last]
      exact decided
  | error failure =>
    cases failure with
    | rejected cause => exact ⟨step, ⟨decided.1, passed⟩, by rw [← decided.2]; rfl⟩
    | escaped cause => rfl

theorem accounted_compileTrimmed (config : Config) (t : Text) :
    Accounted config t ((compileTrimmedNoting config t).run.run []) := by
  -- each step hands on that none before it refuses
  refine accounted_noting decidedBy_checkLength nofun fun _ passed => ?_
  refine accounted_noting decidedBy_checkDenylist passed fun _ passed => ?_
  refine accounted_noting decidedBy_checkParentheses passed fun _ passed => ?_
  refine accounted_noting decidedBy_checkBrackets passed fun _ passed => ?_
  refine accounted_noting decidedBy_checkMethods passed fun _ passed => ?_
  refine accounted_noting decidedBy_checkIdentifiers passed fun _ passed => ?_
  rw [← bind_pure (noting .grammar t (readTree config t))]
  exact accounted_noting decidedBy_readTree passed fun _ _ => rfl

/-- Noting does not change what a step says. -/
theorem result_noting {α : Type} {step : Step} {check : Except Failure α} {next : α → Noting Expr}
    {plain : α → Except Failure Expr}
    (more : ∀ a notices, ((next a).run.run notices).1 = plain a) (notices : List Notice) :
    ((noting step t check >>= next).run.run notices).1 = check >>= plain := by
  cases check with
  | ok a => exact more a notices
  | error failure =>
    cases failure with
    | rejected cause => rfl
    | escaped cause => rfl

theorem result_compileTrimmed (config : Config) (t : Text) (notices : List Notice) :
    ((compileTrimmedNoting config t).run.run notices).1 = compileTrimmed config t := by
  refine result_noting (fun _ notices => ?_) notices
  refine result_noting (fun _ notices => ?_) notices
  refine result_noting (fun _ notices => ?_) notices
  refine result_noting (fun _ notices => ?_) notices
  refine result_noting (fun _ notices => ?_) notices
  refine result_noting (fun _ notices => ?_) notices
  have last : ∀ e notices, ((pure e : Noting Expr).run.run notices).1 = pure e := fun _ _ => rfl
  rw [← bind_pure (noting .grammar t (readTree config t))]
  exact (result_noting last notices).trans (bind_pure _)

theorem accounted_compile (config : Config) (content : Text.allBlank t = false) :
    Accounted config (Text.trim t) (compile config (.text t), notices config (.text t)) := by
  have accounted := accounted_compileTrimmed config (Text.trim t)
  have result := result_compileTrimmed config (Text.trim t) []
  simp only [compile, notices, compileNoting, content, Bool.false_eq_true, ↓reduceIte]
  rwa [← result]

theorem notices_blank {input : Value} (blank : ∀ t, input = .text t → Text.allBlank t = true) :
    notices config input = [] := by
  cases input with
  | text t =>
    simp only [notices, compileNoting, blank t rfl, ↓reduceIte]
    rfl
  | _ => rfl

theorem notices_valid {input : Value} (valid : validate config input = .ok .valid) :
    notices config input = [] := by
  obtain ⟨e, accepted⟩ := validate_eq_valid.1 valid
  obtain ⟨t, rfl, content, -⟩ := compile_eq_ok.1 accepted
  have accounted := accounted_compile config content
  rwa [accepted] at accounted

theorem notices_invalid {reason : Text} (content : Text.allBlank t = false)
    (invalid : validate config (.text t) = .ok (.invalid reason)) :
    ∃ step : Step, step.RefusesFirst config (Text.trim t) ∧
      notices config (.text t) =
        [.rejected step (step.code? (Text.trim t)) (Text.trim t).length] := by
  have accounted := accounted_compile config content
  unfold validate at invalid
  cases answer : compile config (.text t) with
  | ok e =>
    rw [answer] at invalid
    cases invalid
  | error failure =>
    cases failure with
    | rejected cause => rwa [answer] at accounted
    | escaped cause =>
      rw [answer] at invalid
      cases invalid

theorem notices_escaped {input : Value} {cause : Escape}
    (escapes : validate config input = .error cause) : notices config input = [] := by
  by_cases blank : ∀ t, input = .text t → Text.allBlank t = true
  · exact notices_blank blank
  · obtain ⟨t, rfl, content⟩ : ∃ t, input = .text t ∧ Text.allBlank t = false := by
      simpa using blank
    have accounted := accounted_compile config content
    unfold validate at escapes
    cases answer : compile config (.text t) with
    | ok e => rwa [answer] at accounted
    | error failure =>
      cases failure with
      | rejected refusal =>
        rw [answer] at escapes
        cases escapes
      | escaped cause => rwa [answer] at accounted

end Gate
end BranchGate
