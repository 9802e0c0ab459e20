import BranchGate.Log.State
import BranchGate.Proofs.Gate.Noted

/-! What the log shows of validations: one record for a refused text with content, made of the step,
the code and the length. Two texts that agree in these cannot be told apart by it. -/
namespace BranchGate.Log

open BranchGate.Gate

variable {s : State} {config config' : Config} {t t' : Text}

/-- The record of a refusal. -/
def refusal (time : Time) (step : Step) (code : Option Text) (length : Nat) : Record where
  logger := "flowcond.validator"
  level := debugLevel
  message := "condition rejected"
  time
  extras := [("event", "cond.validate.rejected"), ("step", .text step.text),
    ("code", Value.ofOption .text code), ("length", .integer length)]
  problem := none

section Refusal

variable (s : State) (step : Step) (code : Option Text) (length : Nat)

theorem record_rejected : (noticeCall (.rejected step code length)).record s.now =
    .ok (refusal s.now step code length) := by
  have told : Text.ofInt? debugLevel ≠ none := by decide
  exact (if_neg told).trans rfl

theorem log_rejection : s.log (noticeCall (.rejected step code length)) =
    if s.admits debugLevel then
      ⟨s, [refusal s.now step code length], s.emit (refusal s.now step code length), none⟩
    else quiet s := by
  have repeats : (noticeCall (.rejected step code length)).repeated? = none := rfl
  have level : (noticeCall (.rejected step code length)).level = debugLevel := rfl
  rw [State.log, repeats, level]
  simp only [record_rejected]
  rfl

theorem noted_rejection (fault : Option Fault) :
    let o := s.noted [.rejected step code length] fault
    o.records = (if s.admits debugLevel then [refusal s.now step code length] else []) ∧
      o.printed = if s.admits debugLevel then s.emit (refusal s.now step code length) else [] := by
  simp only [State.noted, List.map_singleton, List.flatMap_singleton, log_rejection]
  split
  · exact ⟨rfl, rfl⟩
  · exact ⟨rfl, rfl⟩

end Refusal

theorem validateAll_eq (s : State) (calls : List (Config × Value)) :
    s.validateAll calls = calls.map fun c => s.validate c.1 c.2 := by
  induction calls with
  | nil => rfl
  | cons c calls ih => exact congrArg _ ih

/-- A refusal of a text with content, as it is logged. -/
theorem validate_logs {reason : Text} (s : State) (content : Text.allBlank t = false)
    (invalid : Gate.validate config (.text t) = .ok (.invalid reason)) :
    ∃ step : Step, step.RefusesFirst config (Text.trim t) ∧
      let code := step.code? (Text.trim t)
      let record := refusal s.now step code (Text.trim t).length
      let notice : Notice := .rejected step code (Text.trim t).length
      notices config (.text t) = [notice] ∧ (noticeCall notice).record s.now = .ok record ∧
      (s.validate config (.text t)).records = (if s.admits debugLevel then [record] else []) ∧
      (s.validate config (.text t)).printed =
        if s.admits debugLevel then s.emit record else [] := by
  obtain ⟨step, first, noted⟩ := notices_invalid content invalid
  refine ⟨step, first, noted, record_rejected s step _ _, ?_⟩
  rw [State.validate, noted]
  exact noted_rejection s step _ _ _

/-- Refusals are logged once, by their shape. Validations do not influence each other. One that
accepts logs nothing, nor does one of a blank text or of no text, nor one that ends in a failure
that is no refusal; one that refuses a text with content notes one thing, whose record tells the first
step that refuses, the code of the first rule of the denylist that applies and the length of the
trimmed text, and makes just this record if its level is admitted. What refusals at one step with one
code and one length log and print is the same, whatever the texts and the reasons. -/
theorem refusals_logged_once (s : State) :
    (∀ calls, s.validateAll calls = calls.map fun c => s.validate c.1 c.2) ∧
    (∀ config input, Gate.validate config input = .ok .valid →
      notices config input = [] ∧ (s.validate config input).records = [] ∧
        (s.validate config input).printed = []) ∧
    (∀ config input, (∀ t, input = .text t → Text.allBlank t = true) →
      notices config input = [] ∧ (s.validate config input).records = [] ∧
        (s.validate config input).printed = []) ∧
    (∀ config input cause, Gate.validate config input = .error cause →
      notices config input = [] ∧ (s.validate config input).records = [] ∧
        (s.validate config input).printed = []) ∧
    (∀ config t reason, Text.allBlank t = false →
      Gate.validate config (.text t) = .ok (.invalid reason) →
      ∃ step : Step, step.RefusesFirst config (Text.trim t) ∧
        let code := step.code? (Text.trim t)
        let record := refusal s.now step code (Text.trim t).length
        let notice : Notice := .rejected step code (Text.trim t).length
        notices config (.text t) = [notice] ∧ (noticeCall notice).record s.now = .ok record ∧
        (s.validate config (.text t)).records = (if s.admits debugLevel then [record] else []) ∧
        (s.validate config (.text t)).printed =
          if s.admits debugLevel then s.emit record else []) ∧
    ∀ config config' t t' reason reason' (step : Step),
      Text.allBlank t = false → Text.allBlank t' = false →
      Gate.validate config (.text t) = .ok (.invalid reason) →
      Gate.validate config' (.text t') = .ok (.invalid reason') →
      step.RefusesFirst config (Text.trim t) → step.RefusesFirst config' (Text.trim t') →
      step.code? (Text.trim t) = step.code? (Text.trim t') →
      (Text.trim t).length = (Text.trim t').length →
      notices config (.text t) = notices config' (.text t') ∧
        (s.validate config (.text t)).records = (s.validate config' (.text t')).records ∧
        (s.validate config (.text t)).printed = (s.validate config' (.text t')).printed := by
  have silent {config : Config} {input : Value} (none : notices config input = []) :
      notices config input = [] ∧ (s.validate config input).records = [] ∧
        (s.validate config input).printed = [] := by
    refine ⟨none, ?_⟩
    rw [State.validate, none]
    exact ⟨rfl, rfl⟩
  refine ⟨validateAll_eq s, fun _ _ valid => silent (notices_valid valid),
    fun _ _ blank => silent (notices_blank blank),
    fun _ _ _ escapes => silent (notices_escaped escapes),
    fun _ _ _ content invalid => validate_logs s content invalid, ?_⟩
  intro config config' t t' reason reason' step content content' invalid invalid' first first' code
    length
  obtain ⟨_, same, noted, -, records, printed⟩ := validate_logs s content invalid
  obtain ⟨_, same', noted', -, records', printed'⟩ := validate_logs s content' invalid'
  obtain rfl := first.unique same
  obtain rfl := first'.unique same'
  rw [noted, noted', records, records', printed, printed', code, length]
  exact ⟨rfl, rfl, rfl⟩

/-- Two texts that the rule against `eval` refuses, one of them behind a blank. -/
theorem refusals_logged_once_eval :
    let s : State := ⟨10, [⟨10, .json false⟩], [("node_id", .text "n1")], [], .ofInt 1700000000⟩
    let t : Text := "eval(secret)"
    let t' : Text := " eval('1234')"
    t ≠ t' ∧ (s.validate Config.default (.text t)).records =
        [refusal s.now .denylist (some ("exec.eval" : Text)) 12] ∧
      (s.validate Config.default (.text t)).records =
        (s.validate Config.default (.text t')).records ∧
      (s.validate Config.default (.text t)).printed =
        (s.validate Config.default (.text t')).printed := by
  intro s t t'
  have first {u : Text} (short : u.length = 12)
      (found : (Rule.first? denylist u).map Rule.code = some ("exec.eval" : Text)) :
      Step.denylist.RefusesFirst Config.default u := by
    obtain ⟨rule, found, -⟩ := Option.map_eq_some_iff.1 found
    refine ⟨⟨rule, List.mem_of_find?_eq_some found, by simpa using List.find?_some found⟩, ?_⟩
    intro other member
    obtain rfl : other = .length := by simpa [Step.earlier, Step.order] using member
    simp [Step.Refuses, short, Config.default, Limit.value]
  have invalid : Gate.validate Config.default (.text t) =
      .ok (.invalid "Expression contains disallowed syntax: eval") := by decide +kernel
  have invalid' : Gate.validate Config.default (.text t') =
      .ok (.invalid "Expression contains disallowed syntax: eval") := by decide +kernel
  have code : Step.denylist.code? (Text.trim t) = some ("exec.eval" : Text) := by decide +kernel
  have code' : Step.denylist.code? (Text.trim t') = some ("exec.eval" : Text) := by decide +kernel
  have step : Step.denylist.RefusesFirst Config.default (Text.trim t) := first (by decide) code
  have step' : Step.denylist.RefusesFirst Config.default (Text.trim t') := first (by decide) code'
  obtain ⟨-, -, -, -, logs, agree⟩ := refusals_logged_once s
  obtain ⟨found, same, -, -, records, -⟩ := logs _ t _ (by decide) invalid
  obtain rfl := step.unique same
  refine ⟨by decide, ?_, ?_⟩
  · rw [records, code]
    rfl
  · exact (agree _ _ t t' _ _ .denylist (by decide) (by decide) invalid invalid' step step'
      (code.trans code'.symm) (by decide)).2

end BranchGate.Log
