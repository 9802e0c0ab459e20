import BranchGate.Proofs.Expr.InStep
import BranchGate.Proofs.Expr.Nesting
import BranchGate.Proofs.Expr.Usage
import BranchGate.Proofs.Gate.Answers
import BranchGate.Proofs.Gate.Scans
import BranchGate.Proofs.Scan.Keys
import BranchGate.Proofs.Token.Completeness

/-! What a configuration has to do with a condition. A condition that one configuration accepts is
accepted by another, as the same tree, exactly if it is not too long, its integer indexes are not
too long, it is not nested too deeply and its methods are allowed; else it is refused. -/
namespace BranchGate.Gate

open Token (Lexed)

/-- The limit on index digits is a count, and one that can be looked for. -/
def CountsDigits (config : Config) : Prop :=
  ∃ n, config.maxIndexDigits = .count n ∧ n < Scan.repetitionBound

/-- What a trimmed text, its tokens and its tree ask of a configuration. -/
structure Fits (config : Config) (s : Text) (ts : List Token) (e : Expr) : Prop where
  length : (s.length : Int) ≤ config.maxLength.value
  indexes : Scan.ShortIndexes config.maxIndexDigits.value ts
  nesting : (Expr.nesting (ts.map Token.lexeme) : Int) ≤ config.maxDepth.value
  methods : ∀ name ∈ e.usedMethods, name ∈ config.methods

/-- No limit is lower and no method is missing. -/
structure Relaxes (config config' : Config) : Prop where
  length : config.maxLength.value ≤ config'.maxLength.value
  indexes : config.maxIndexDigits.value ≤ config'.maxIndexDigits.value
  nesting : config.maxDepth.value ≤ config'.maxDepth.value
  methods : ∀ name ∈ config.methods, name ∈ config'.methods

theorem Fits.relax {config config' : Config} {s : Text} {ts : List Token} {e : Expr}
    (fits : Fits config s ts e) (relaxes : Relaxes config config') : Fits config' s ts e where
  length := Int.le_trans fits.length relaxes.length
  indexes := fun opening key inside isOpen n isInteger =>
    Int.le_trans (fits.indexes opening key inside isOpen n isInteger) relaxes.indexes
  nesting := Int.le_trans fits.nesting relaxes.nesting
  methods := fun name used => relaxes.methods name (fits.methods name used)

/-- Nesting is allowed up to the limit, and up to what the stack holds. -/
theorem le_allowance_depth (config : Config) (d : Nat) :
    d ≤ (allowance config).depth.value.toNat ↔
      (d : Int) ≤ config.maxDepth.value ∧ d ≤ config.stackLevels := by
  have positive := config.maxDepth_pos
  unfold allowance
  simp only
  split
  next low => omega
  next high =>
    have held : (Limit.count config.stackLevels).value.toNat = config.stackLevels := rfl
    omega

variable {config config' : Config} {s t : Text} {ts : List Token} {e e' : Expr}

/-- A text that is accepted has tokens, and they derive the tree. -/
theorem derives_of_compileTrimmed (accepted : compileTrimmed config s = .ok e) : ∃ ts d,
    Token.lex s = .ok ts ∧ (∀ t ∈ ts, t.lexeme.isOverlong = false) ∧
      d ≤ (allowance config).depth.value.toNat ∧
      Expr.DerivesAll config.methods (ts.map Token.lexeme) e d := by
  obtain ⟨_, _, _, _, _, _, read⟩ := compileTrimmed_eq_ok.1 accepted
  obtain ⟨ts, lexed, parsed⟩ := bind_eq_ok.1 read
  obtain ⟨d, low, derived⟩ := Expr.derives_of_parse parsed
  exact ⟨ts, d, lexed, Expr.short_of_parse parsed, low, derived⟩

/-- What is accepted is no blank text. -/
theorem compile_text_eq_ok :
    compile config (.text t) = .ok e ↔ compileTrimmed config (Text.trim t) = .ok e := by
  rw [compile_eq_ok]
  constructor
  · rintro ⟨_, ⟨⟩, _, accepted⟩
    exact accepted
  · intro accepted
    refine ⟨t, rfl, eq_false_of_ne_true fun blank => ?_, accepted⟩
    rw [Text.trim_of_allBlank blank] at accepted
    obtain ⟨ts, d, lexed, _, _, derived⟩ := derives_of_compileTrimmed accepted
    obtain rfl := (Token.lexed_of_lex lexed).unique .done
    exact Expr.derives_ne_nil derived rfl

/-- Two configurations never see different trees in a text. -/
theorem compileTrimmed_agrees (accepted : compileTrimmed config s = .ok e)
    (accepted' : compileTrimmed config' s = .ok e') : e = e' := by
  obtain ⟨ts, d, lexed, short, _, derived⟩ := derives_of_compileTrimmed accepted
  obtain ⟨ts', d', lexed', _, _, derived'⟩ := derives_of_compileTrimmed accepted'
  cases lexed.symm.trans lexed'
  have granted : ∀ name ∈ e.usedMethods, name ∈ config.methods ++ config'.methods :=
    fun name used => List.mem_append_left _ (Expr.usedMethods_of_derives derived name used)
  have granted' : ∀ name ∈ e'.usedMethods, name ∈ config.methods ++ config'.methods :=
    fun name used => List.mem_append_right _ (Expr.usedMethods_of_derives derived' name used)
  let joint : Expr.Allowance := ⟨config.methods ++ config'.methods, .count 0⟩
  exact (Expr.parse_iff_derives joint ts short).2.1 e d e' d' (derived.withMethods granted)
    (derived'.withMethods granted')

theorem fits_of_compileTrimmed (counts : CountsDigits config)
    (accepted : compileTrimmed config s = .ok e) (lexed : Token.lex s = .ok ts) :
    Fits config s ts e := by
  obtain ⟨_, d, lexed', _, low, derived⟩ := derives_of_compileTrimmed accepted
  cases lexed'.symm.trans lexed
  obtain ⟨n, isCount, _⟩ := counts
  obtain ⟨length, _, _, ⟨_, brackets⟩, _⟩ := compileTrimmed_eq_ok.1 accepted
  have positive := config.maxIndexDigits_pos
  rw [isCount] at brackets positive
  refine ⟨length, ?_, ?_, Expr.usedMethods_of_derives derived⟩
  · rw [isCount]
    exact (Scan.bracketFault?_count positive positive (Token.lexed_of_lex lexed)
      (Expr.keyed_of_derives derived) brackets).1 brackets
  · rw [Expr.nesting_of_derives derived]
    exact ((le_allowance_depth config d).1 low).1

theorem compileTrimmed_of_fits (counts : CountsDigits config) (counts' : CountsDigits config')
    (stack : config'.stackLevels = config.stackLevels)
    (accepted : compileTrimmed config s = .ok e) (lexed : Token.lex s = .ok ts)
    (fits : Fits config' s ts e) : compileTrimmed config' s = .ok e := by
  obtain ⟨_, d, lexed', short, low, derived⟩ := derives_of_compileTrimmed accepted
  cases lexed'.symm.trans lexed
  obtain ⟨n, isCount, _⟩ := counts
  obtain ⟨n', isCount', small⟩ := counts'
  obtain ⟨_, denied, parentheses, ⟨_, brackets⟩, _⟩ := compileTrimmed_eq_ok.1 accepted
  have positive := config.maxIndexDigits_pos
  have positive' := config'.maxIndexDigits_pos
  have indexes := fits.indexes
  rw [isCount] at brackets positive
  rw [isCount'] at positive' indexes
  have brackets' : Scan.bracketFault? config'.maxIndexDigits s = none := by
    rw [isCount']
    exact (Scan.bracketFault?_count positive positive' (Token.lexed_of_lex lexed)
      (Expr.keyed_of_derives derived) brackets).2 indexes
  have nesting := fits.nesting
  rw [Expr.nesting_of_derives derived] at nesting
  have low' : d ≤ (allowance config').depth.value.toNat :=
    (le_allowance_depth config' d).2 ⟨nesting, stack ▸ ((le_allowance_depth config d).1 low).2⟩
  have read : Expr.read (allowance config') s = .ok e :=
    bind_eq_ok.2 ⟨ts, lexed, Expr.parse_of_derives short low' (derived.withMethods fits.methods)⟩
  have small : config'.maxIndexDigits.value < Scan.repetitionBound := by rw [isCount']; exact small
  obtain ⟨methods, identifiers⟩ := scans_of_read read
  exact compileTrimmed_eq_ok.2
    ⟨fits.length, denied, parentheses, ⟨small, brackets'⟩, methods, identifiers, read⟩

/-- What some configuration accepts breaks through none whose limit can be looked for. -/
theorem not_breaks (counts' : CountsDigits config') (accepted : compileTrimmed config s = .ok e)
    (cause : Escape) : ¬Breaks config' s cause := by
  intro breaks
  obtain ⟨ts, _, lexed, short, _⟩ := derives_of_compileTrimmed accepted
  obtain ⟨n', isCount', small⟩ := counts'
  have searchable : config'.maxIndexDigits.value < Scan.repetitionBound := by rwa [isCount']
  cases breaks with
  | limit long =>
    exact absurd (short_of_searchable config'.maxIndexDigits_pos searchable) (Nat.not_lt.2 long)
  | repetition large => exact absurd searchable (Int.not_lt.2 large)
  | digits failed =>
    rcases bind_eq_error.1 failed with unlexed | ⟨ts', lexed', failed⟩
    · cases unlexed.symm.trans lexed
    · cases lexed.symm.trans lexed'
      obtain ⟨fault, malformed⟩ := Expr.parse_malformed short failed
      cases malformed

/-- Four facts of a condition decide whether another configuration accepts it over the same stack:
its length, the digits of its integer indexes, its nesting and its methods. If all are within the
limits, the tree is the same; if one is not, the condition is refused. -/
theorem compile_depends_on_limits (counts : CountsDigits config) (counts' : CountsDigits config')
    (stack : config'.stackLevels = config.stackLevels)
    (accepted : compile config (.text t) = .ok e) :
    ∃ ts, Token.lex (Text.trim t) = .ok ts ∧
      (Fits config' (Text.trim t) ts e → compile config' (.text t) = .ok e) ∧
      (¬Fits config' (Text.trim t) ts e →
        ∃ cause, compile config' (.text t) = .error (.rejected cause)) ∧
      (Relaxes config config' → compile config' (.text t) = .ok e) := by
  obtain ⟨_, ⟨⟩, filled, accepted⟩ := compile_eq_ok.1 accepted
  obtain ⟨ts, _, lexed, _⟩ := derives_of_compileTrimmed accepted
  have accepts (fits : Fits config' (Text.trim t) ts e) : compile config' (.text t) = .ok e :=
    compile_eq_ok.2
      ⟨t, rfl, filled, compileTrimmed_of_fits counts counts' stack accepted lexed fits⟩
  refine ⟨ts, lexed, accepts, fun misfit => ?_, fun relaxes => ?_⟩
  · cases answer : compile config' (.text t) with
    | ok e' =>
      obtain ⟨_, ⟨⟩, _, accepted'⟩ := compile_eq_ok.1 answer
      rw [compileTrimmed_agrees accepted accepted'] at misfit
      exact absurd (fits_of_compileTrimmed counts' accepted' lexed) misfit
    | error f =>
      rcases compile_fails answer with ⟨cause, rfl, _⟩ | ⟨cause, _, _, ⟨⟩, breaks⟩
      · exact ⟨cause, rfl⟩
      · exact absurd breaks (not_breaks counts' accepted cause)
  · exact accepts ((fits_of_compileTrimmed counts accepted lexed).relax relaxes)

/-- A configuration for indexes of one digit. -/
def oneDigit : Config :=
  { Config.default with maxIndexDigits := .count 1, maxIndexDigits_pos := by decide }

/-- Leading zeros count: an index of two digits is refused where one is allowed. -/
theorem compile_leading_zero :
    ∃ e, compile Config.default (.text (" __v0[01] > 1" : String).toList) = .ok e ∧
      ∃ cause, compile oneDigit (.text (" __v0[01] > 1" : String).toList) =
        .error (.rejected cause) := by
  have accepted : compile Config.default (.text (" __v0[01] > 1" : String).toList) =
      .ok (.binary .gt (.index 0 (.integer 1)) (.literal (.integer 1))) :=
    eq_ok_of_toOption (by decide +kernel)
  have known : Token.lex (Text.trim (" __v0[01] > 1" : String).toList) = .ok [
      ⟨.name ("__v0" : String).toList, ("__v0" : String).toList, 0⟩, ⟨.punct .openBracket, ['['], 4⟩,
      ⟨.integer 1, ['0', '1'], 5⟩, ⟨.punct .closeBracket, [']'], 7⟩, ⟨.punct .gt, ['>'], 9⟩,
      ⟨.integer 1, ['1'], 11⟩] := eq_ok_of_toOption (by decide +kernel)
  obtain ⟨ts, lexed, _, refuses, _⟩ := compile_depends_on_limits
    (show CountsDigits Config.default from ⟨4, rfl, by decide⟩)
    (show CountsDigits oneDigit from ⟨1, rfl, by decide⟩) rfl accepted
  cases known.symm.trans lexed
  refine ⟨_, accepted, refuses fun fits => ?_⟩
  have short := fits.indexes ⟨.punct .openBracket, ['['], 4⟩ ⟨.integer 1, ['0', '1'], 5⟩
    ⟨[_], _, rfl⟩ rfl 1 rfl
  exact absurd short (by decide)

end BranchGate.Gate
