import BranchGate.Gate
import BranchGate.Proofs.Outcome
import BranchGate.Proofs.Text.Trim

/-! When each step of the gate passes, and so when a condition gets through all of them; and what
each can fail with. -/
namespace BranchGate.Gate

variable {config : Config} {t : Text} {e : Expr}

theorem checkLength_eq_ok :
    checkLength config t = .ok () ↔ (t.length : Int) ≤ config.maxLength.value := by
  simp [checkLength, reject]

theorem checkDenylist_eq_ok : checkDenylist t = .ok () ↔ Rule.first? denylist t = none := by
  unfold checkDenylist
  split <;> simp_all [reject]

theorem checkParentheses_eq_ok :
    checkParentheses t = .ok () ↔ Scan.parenthesesBalance t = true := by
  simp [checkParentheses, reject]

/-- What can be looked for can be written. -/
theorem short_of_searchable {n : Int} (positive : 0 < n) (small : n < Scan.repetitionBound) :
    n.natAbs < powerOfTen digitLimit := by
  have bound : Scan.repetitionBound < powerOfTen 10 := by decide
  have wide : powerOfTen 10 ≤ powerOfTen digitLimit := powerOfTen_le (by decide)
  omega

/-- A run of one to so many digits can be looked for. -/
theorem bracketFault_searchable {limit : Limit} (positive : 0 < limit.value)
    (small : limit.value < Scan.repetitionBound) :
    bracketFault limit t = .ok (Scan.bracketFault? limit t) := by
  have written : (Text.ofInt? limit.value).isSome = true :=
    Text.isSome_ofInt?.2 (short_of_searchable positive small)
  have counts : limit ≠ .count 0 := by
    rintro rfl
    exact absurd positive (by decide)
  rw [bracketFault, if_neg (Option.isSome_iff_ne_none.1 written), if_neg (Int.not_le.2 small),
    if_neg counts]

theorem bracketFault_unsearchable {limit : Limit} (large : Scan.repetitionBound ≤ limit.value) :
    bracketFault limit t =
      .error (if Text.ofInt? limit.value = none then .longLimit else .repetitionTooLarge) := by
  unfold bracketFault
  split_ifs
  · rfl
  · rfl

theorem checkBrackets_eq_ok : checkBrackets config t = .ok () ↔
    config.maxIndexDigits.value < Scan.repetitionBound ∧
      Scan.bracketFault? config.maxIndexDigits t = none := by
  unfold checkBrackets
  by_cases small : config.maxIndexDigits.value < Scan.repetitionBound
  · rw [bracketFault_searchable config.maxIndexDigits_pos small]
    cases Scan.bracketFault? config.maxIndexDigits t <;> simp [reject, small]
  · rw [bracketFault_unsearchable (Int.not_lt.1 small)]
    simp [small]

theorem checkMethods_eq_ok :
    checkMethods config t = .ok () ↔ Scan.foreignMethod? config.methods t = none := by
  unfold checkMethods
  split <;> simp_all [reject]

theorem checkIdentifiers_eq_ok : checkIdentifiers t = .ok () ↔ Scan.strayIdentifier? t = none := by
  unfold checkIdentifiers
  split <;> simp_all [reject]

theorem readTree_eq_ok : readTree config t = .ok e ↔ Expr.read (allowance config) t = .ok e :=
  mapError_eq_ok

theorem compileTrimmed_eq_ok : compileTrimmed config t = .ok e ↔
    (t.length : Int) ≤ config.maxLength.value ∧ Rule.first? denylist t = none ∧
      Scan.parenthesesBalance t = true ∧
      (config.maxIndexDigits.value < Scan.repetitionBound ∧
        Scan.bracketFault? config.maxIndexDigits t = none) ∧
      Scan.foreignMethod? config.methods t = none ∧ Scan.strayIdentifier? t = none ∧
      Expr.read (allowance config) t = .ok e := by
  simp only [compileTrimmed, check_eq_ok, checkLength_eq_ok, checkDenylist_eq_ok,
    checkParentheses_eq_ok, checkBrackets_eq_ok, checkMethods_eq_ok, checkIdentifiers_eq_ok,
    readTree_eq_ok]

theorem compile_eq_ok {input : Value} : compile config input = .ok e ↔
    ∃ t, input = .text t ∧ Text.allBlank t = false ∧
      compileTrimmed config (Text.trim t) = .ok e := by
  cases input with
  | text t => cases blank : Text.allBlank t <;> simp [compile, blank, reject]
  | _ => simp [compile, reject]

/-- A condition is taken as it is trimmed. -/
theorem compile_trim (config : Config) (t : Text) :
    compile config (.text (Text.trim t)) = compile config (.text t) := by
  simp only [compile, Text.allBlank_trim, Text.trim_trim]

theorem validate_eq_valid {input : Value} :
    validate config input = .ok .valid ↔ ∃ e, compile config input = .ok e := by
  unfold validate
  cases compile config input with
  | ok e => simp
  | error f => cases f <;> simp

/-- The ways in which the steps fail on a trimmed text. -/
inductive Fails (config : Config) (t : Text) : Failure → Prop
  | length : config.maxLength.value < t.length →
      Fails config t (.rejected (.tooLong config.maxLength))
  | denied {rule} : Rule.first? denylist t = some rule → Fails config t (.rejected (.denied rule))
  | parentheses : Scan.parenthesesBalance t = false → Fails config t (.rejected .parentheses)
  | brackets {fault} : bracketFault config.maxIndexDigits t = .ok (some fault) →
      Fails config t (.rejected (.brackets fault))
  | limit {cause} : bracketFault config.maxIndexDigits t = .error cause →
      Fails config t (.escaped cause)
  | method {name} : Scan.foreignMethod? config.methods t = some name →
      Fails config t (.rejected (.method name))
  | identifier {name} : Scan.strayIdentifier? t = some name →
      Fails config t (.rejected (.identifier name))
  | grammar {cause} : Expr.read (allowance config) t = .error cause →
      Fails config t (grammarFailure config cause)

section Failing

variable {f : Failure}

theorem checkLength_fails (failed : checkLength config t = .error f) : Fails config t f := by
  unfold checkLength at failed
  split at failed
  next long => cases failed; exact .length long
  next => cases failed

theorem checkDenylist_fails (failed : checkDenylist t = .error f) : Fails config t f := by
  unfold checkDenylist at failed
  split at failed
  next rule found => cases failed; exact .denied found
  next => cases failed

theorem checkParentheses_fails (failed : checkParentheses t = .error f) : Fails config t f := by
  unfold checkParentheses at failed
  split at failed
  next => cases failed
  next unbalanced => cases failed; exact .parentheses (eq_false_of_ne_true unbalanced)

theorem checkBrackets_fails (failed : checkBrackets config t = .error f) : Fails config t f := by
  unfold checkBrackets at failed
  split at failed
  next => cases failed
  next fault found => cases failed; exact .brackets found
  next cause escapes => cases failed; exact .limit escapes

theorem checkMethods_fails (failed : checkMethods config t = .error f) : Fails config t f := by
  unfold checkMethods at failed
  split at failed
  next name found => cases failed; exact .method found
  next => cases failed

theorem checkIdentifiers_fails (failed : checkIdentifiers t = .error f) : Fails config t f := by
  unfold checkIdentifiers at failed
  split at failed
  next name found => cases failed; exact .identifier found
  next => cases failed

theorem readTree_fails (failed : readTree config t = .error f) : Fails config t f := by
  unfold readTree at failed
  cases read : Expr.read (allowance config) t with
  | ok e => rw [read] at failed; cases failed
  | error cause =>
    rw [read] at failed
    cases failed
    exact .grammar read

/-- One check after another: the failure is that of the check or that of what follows. -/
theorem bind_fails {α β : Type} {x : Except Failure α} {k : α → Except Failure β}
    (first : ∀ f, x = .error f → Fails config t f)
    (next : ∀ a f, k a = .error f → Fails config t f) :
    ∀ f, x >>= k = .error f → Fails config t f := by
  intro f failed
  rcases bind_eq_error.1 failed with failed | ⟨a, _, failed⟩
  · exact first f failed
  · exact next a f failed

theorem compileTrimmed_fails : ∀ f, compileTrimmed config t = .error f → Fails config t f :=
  bind_fails (fun _ => checkLength_fails) fun _ =>
  bind_fails (fun _ => checkDenylist_fails) fun _ =>
  bind_fails (fun _ => checkParentheses_fails) fun _ =>
  bind_fails (fun _ => checkBrackets_fails) fun _ =>
  bind_fails (fun _ => checkMethods_fails) fun _ =>
  bind_fails (fun _ => checkIdentifiers_fails) fun _ _ => readTree_fails

end Failing

end BranchGate.Gate
