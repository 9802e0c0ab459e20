import BranchGate.Gate
import BranchGate.Proofs.Outcome
import BranchGate.Proofs.Rule.Seams
import BranchGate.Proofs.Text.Trim

/-! The pre-check against the gate. Every keyword is on the denylist, and the blanks that the gate
trims hide none, so what the pre-check refuses the gate refuses too. -/
namespace BranchGate

namespace Pattern

/-- All that a pattern looks for is looked for by one of the rules. -/
def CoveredBy (rules : List Rule) : Pattern → Prop
  | .assignment => ∃ rule ∈ rules, rule.pattern = .assignment
  | .word ws => ∀ w ∈ ws, ∃ rule ∈ rules, w ∈ rule.pattern.words
  | .fragment fs => ∀ f ∈ fs, ∃ rule ∈ rules, f ∈ rule.pattern.fragments
  | .either p q => p.CoveredBy rules ∧ q.CoveredBy rules

instance decidableCoveredBy (rules : List Rule) : (p : Pattern) → Decidable (p.CoveredBy rules)
  | .assignment => inferInstanceAs (Decidable (∃ rule ∈ rules, rule.pattern = .assignment))
  | .word ws => inferInstanceAs (Decidable (∀ w ∈ ws, ∃ rule ∈ rules, w ∈ rule.pattern.words))
  | .fragment fs =>
    inferInstanceAs (Decidable (∀ f ∈ fs, ∃ rule ∈ rules, f ∈ rule.pattern.fragments))
  | .either p q =>
    have := decidableCoveredBy rules p
    have := decidableCoveredBy rules q
    inferInstanceAs (Decidable (p.CoveredBy rules ∧ q.CoveredBy rules))

theorem here_of_coveredBy {p : Pattern} {rules : List Rule} {before : Option Char} {s : Text}
    (covered : p.CoveredBy rules) (stands : p.here before s = true) :
    ∃ rule ∈ rules, rule.pattern.here before s = true := by
  induction p with
  | assignment =>
    obtain ⟨rule, listed, same⟩ := covered
    exact ⟨rule, listed, by rwa [same]⟩
  | word ws =>
    obtain ⟨w, member, found⟩ := List.any_eq_true.1 stands
    obtain ⟨rule, listed, known⟩ := covered w member
    exact ⟨rule, listed, here_of_word known found⟩
  | fragment fs =>
    obtain ⟨f, member, found⟩ := List.any_eq_true.1 stands
    obtain ⟨rule, listed, known⟩ := covered f member
    exact ⟨rule, listed, here_of_fragment known found⟩
  | either p q ihLeft ihRight =>
    rw [here, Bool.or_eq_true] at stands
    rcases stands with left | right
    · exact ihLeft covered.1 left
    · exact ihRight covered.2 right

end Pattern

/-- A text that passes some rules passes all that they cover. -/
theorem Rule.first?_of_coveredBy {rules rules' : List Rule} {s : Text}
    (covered : ∀ rule ∈ rules, rule.pattern.CoveredBy rules')
    (passes : Rule.first? rules' s = none) : Rule.first? rules s = none := by
  refine Rule.first?_eq_none.2 fun rule listed => eq_false_of_ne_true fun applies => ?_
  obtain ⟨a, b, rfl, filled, stands⟩ := Pattern.here_of_occurs applies
  obtain ⟨rule', listed', stands'⟩ := Pattern.here_of_coveredBy (covered rule listed) stands
  have misses := not_occurs_of_first? passes rule' listed'
  rw [Pattern.occurs_of_here filled stands'] at misses
  cases misses

theorem keywordRules_covered : ∀ rule ∈ keywordRules, rule.pattern.CoveredBy denylist := by decide

/-- Trimming changes nothing about the rules. -/
theorem Rule.first?_trim {rules : List Rule} (regular : ∀ rule ∈ rules, rule.pattern.Regular)
    (t : Text) : Rule.first? rules (Text.trim t) = none ↔ Rule.first? rules t = none := by
  obtain ⟨l, r, whole, left, right⟩ := Text.trim_infix t
  have apart_left : ∀ x ∈ l.getLast?, ∀ y ∈ (Text.trim t ++ r).head?, SetApart x y :=
    fun x last y _ => setApart_blank_left (left x (List.mem_of_getLast? last))
  have apart_right : ∀ x ∈ (Text.trim t).getLast?, ∀ y ∈ r.head?, SetApart x y :=
    fun x _ y first => setApart_blank_right (right y (List.mem_of_head? first))
  have both := Rule.first?_append regular apart_left
  rw [Rule.first?_append regular apart_right, ← whole] at both
  simp only [Rule.first?_blank regular left, Rule.first?_blank regular right, true_and,
    and_true] at both
  exact both.symm

namespace Gate

variable {config : Config}

theorem checkLength_rejects {s : Text} {f : Failure} (failed : checkLength config s = .error f) :
    ∃ cause, f = .rejected cause := by
  unfold checkLength at failed
  split at failed
  · cases failed; exact ⟨_, rfl⟩
  · cases failed

/-- The denylist refuses before anything could break through. -/
theorem compileTrimmed_denied (config : Config) {s : Text} (denied : Rule.first? denylist s ≠ none) :
    ∃ cause, compileTrimmed config s = .error (.rejected cause) := by
  obtain ⟨rule, found⟩ := Option.ne_none_iff_exists'.1 denied
  have refused : checkDenylist s = .error (.rejected (.denied rule)) := by
    rw [checkDenylist, found]
    rfl
  cases length : checkLength config s with
  | error f =>
    obtain ⟨cause, rfl⟩ := checkLength_rejects length
    exact ⟨cause, bind_eq_error.2 (.inl length)⟩
  | ok _ =>
    exact ⟨.denied rule, bind_eq_error.2 (.inr ⟨(), length, bind_eq_error.2 (.inl refused)⟩)⟩

theorem validate_of_rejected {input : Value} (cause : Rejection)
    (refused : compile config input = .error (.rejected cause)) :
    validate config input = .ok (.invalid cause.message) := by
  rw [validate, refused]

theorem validate_denied {t : Text} (denied : Rule.first? denylist (Text.trim t) ≠ none) :
    ∃ reason, validate config (.text t) = .ok (.invalid reason) := by
  by_cases blank : Text.allBlank t = true
  · refine ⟨_, validate_of_rejected .empty ?_⟩
    simp [compile, blank, reject]
  · obtain ⟨cause, refused⟩ := compileTrimmed_denied config denied
    refine ⟨_, validate_of_rejected cause ?_⟩
    simpa [compile, blank] using refused

/-- What the pre-check refuses the gate refuses with a reason, under every configuration; so what
the gate accepts passes the pre-check. -/
theorem precheck_never_blocks (config : Config) (input : Value) :
    (∀ reason, preValidate input = .invalid reason →
      ∃ reason', validate config input = .ok (.invalid reason')) ∧
    (validate config input = .ok .valid → preValidate input = .valid) := by
  have refuses : ∀ reason, preValidate input = .invalid reason →
      ∃ reason', validate config input = .ok (.invalid reason') := by
    intro reason invalid
    unfold preValidate at invalid
    split at invalid
    next => exact ⟨_, validate_of_rejected .empty rfl⟩
    next t _ =>
      split at invalid
      next rule found =>
        refine validate_denied fun passes => ?_
        have passes := (Rule.first?_trim denylist_regular t).1 passes
        rw [Rule.first?_of_coveredBy keywordRules_covered passes] at found
        cases found
      next => cases invalid
    next _ other =>
      refine ⟨_, validate_of_rejected .empty ?_⟩
      cases input with
      | text t => exact absurd rfl (other t)
      | _ => rfl
  refine ⟨refuses, fun valid => ?_⟩
  cases answer : preValidate input with
  | valid => rfl
  | invalid reason =>
    obtain ⟨_, refused⟩ := refuses reason answer
    rw [valid] at refused
    cases refused

/-- A keyword with a dotless i, between blanks of which one is no ASCII space. -/
theorem precheck_trimmed_keyword :
    preValidate (.text ['\u2003', '\u0131', 'm', 'P', 'o', 'r', 't', ' ']) =
        .invalid ("Expression contains disallowed keyword \"import\"" : String).toList ∧
      ∃ reason, validate Config.default
        (.text ['\u2003', '\u0131', 'm', 'P', 'o', 'r', 't', ' ']) = .ok (.invalid reason) := by
  have refused : preValidate (.text ['\u2003', '\u0131', 'm', 'P', 'o', 'r', 't', ' ']) =
      .invalid ("Expression contains disallowed keyword \"import\"" : String).toList := by
    decide +kernel
  exact ⟨refused, (precheck_never_blocks Config.default _).1 _ refused⟩

end Gate
end BranchGate
