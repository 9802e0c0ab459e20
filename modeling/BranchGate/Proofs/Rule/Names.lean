import BranchGate.Proofs.Rule.Tokens

/-! What the rules find in a single token without quotes: the rules about marks find nothing, and
those about words find something in the names of properties only. -/
namespace BranchGate

/-- The rules about marks; the others are about words. -/
def symbolCodes : List Text :=
  ["assign", "incdec", "shift", "semicolon", "object", "comma", "template"]

def symbolRules : List Rule := denylist.filter fun rule => symbolCodes.contains rule.code

def wordRules : List Rule := denylist.filter fun rule => !symbolCodes.contains rule.code

example : wordRules.map Rule.code = (["exec.eval", "exec.function", "exec.import", "exec.require",
    "exec.new", "flow", "global", "proto"] : List Text) := by decide

theorem Rule.first?_denylist {s : Text} : Rule.first? denylist s = none ↔
    Rule.first? symbolRules s = none ∧ Rule.first? wordRules s = none := by
  simp only [Rule.first?_eq_none, symbolRules, wordRules, List.mem_filter, Bool.not_eq_true']
  constructor
  · exact fun passes => ⟨fun rule listed => passes rule listed.1,
      fun rule listed => passes rule listed.1⟩
  · intro ⟨symbols, words⟩ rule listed
    cases kind : symbolCodes.contains rule.code with
    | true => exact symbols rule ⟨listed, kind⟩
    | false => exact words rule ⟨listed, kind⟩

theorem symbolRules_regular : ∀ rule ∈ symbolRules, rule.pattern.Regular :=
  fun rule listed => denylist_regular rule (List.mem_filter.1 listed).1

theorem wordRules_regular : ∀ rule ∈ wordRules, rule.pattern.Regular :=
  fun rule listed => denylist_regular rule (List.mem_filter.1 listed).1

open Token (Spells)

/-- The characters of numbers and variables. -/
def isQuiet (c : Char) : Bool := c.isDigit || c == '.' || c == '_' || c == 'v'

theorem fold_quiet {c : Char} (quiet : isQuiet c = true) : Text.fold c = c := by
  simp only [isQuiet, Bool.or_eq_true, beq_iff_eq] at quiet
  rcases quiet with ((digit | rfl) | rfl) | rfl
  · have range := Text.isDigit_range digit
    rw [Text.fold_of_ascii (by omega)]
    exact (Text.toLower_cases c).resolve_right (by omega)
  · decide
  · decide
  · decide

/-- Everything denied is spelled with a letter or mark of another kind. -/
theorem denylist_unquiet : ∀ rule ∈ denylist, ∀ w ∈ rule.pattern.spelled,
    w.any (fun a => !isQuiet (Text.fold a)) = true := by decide +kernel

theorem passes_of_quiet {s : Text} (quiet : ∀ c ∈ s, isQuiet c = true) :
    Rule.first? denylist s = none := by
  refine Rule.first?_eq_none.2 fun rule listed => eq_false_of_ne_true fun applies => ?_
  obtain ⟨w, spelled, taken⟩ := Pattern.spelled_of_occurs applies
  obtain ⟨a, inside, other⟩ := List.any_eq_true.1 (denylist_unquiet rule listed w spelled)
  obtain ⟨c, member, same⟩ := taken a inside
  rw [Text.sameLetter, beq_iff_eq, fold_quiet (quiet c member)] at same
  rw [same, quiet c member] at other
  cases other

/-- Marks are spelled with a character of no name. -/
theorem symbolRules_unnamed : ∀ rule ∈ symbolRules, ∀ w ∈ rule.pattern.spelled,
    w.any (fun a => a.toNat < 128 && !a.isAlpha && !Text.isNameChar a) = true := by decide +kernel

theorem passes_name {n : Text} (named : Text.isName n = true) :
    Rule.first? symbolRules n = none := by
  refine Rule.first?_eq_none.2 fun rule listed => eq_false_of_ne_true fun applies => ?_
  obtain ⟨w, spelled, taken⟩ := Pattern.spelled_of_occurs applies
  obtain ⟨a, inside, other⟩ := List.any_eq_true.1 (symbolRules_unnamed rule listed w spelled)
  simp only [Bool.and_eq_true, decide_eq_true_eq, Bool.not_eq_true'] at other
  obtain ⟨⟨ascii, caseless⟩, outside⟩ := other
  obtain ⟨c, member, same⟩ := taken a inside
  obtain rfl := Text.eq_of_sameLetter ascii caseless same
  rw [Text.isNameChar_of_mem named member] at outside
  cases outside

theorem passes_marks : ∀ p ∈ Punct.all, Rule.first? denylist p.text = none := by decide +kernel

theorem passes_reserved : ∀ n ∈ reservedNames, Rule.first? denylist n = none := by decide +kernel

theorem mem_reservedNames {n : Text} (known : (Literal.ofName? n).isSome = true) :
    n ∈ reservedNames := by
  unfold Literal.ofName? at known
  split at known
  next isTrue => rw [isTrue]; decide
  next =>
    split at known
    next isFalse => rw [isFalse]; decide
    next =>
      split at known
      next isNull => rcases isNull with rfl | rfl <;> decide
      next => cases known

theorem passes_known {n : Text} (known : Expr.IsKnown n) : Rule.first? denylist n = none := by
  rcases known with reserved | isVar
  · exact passes_reserved n (mem_reservedNames reserved)
  · obtain ⟨ds, rfl, digits⟩ := Expr.isVariable_cases isVar
    refine passes_of_quiet ?_
    simp only [List.forall_mem_cons]
    exact ⟨rfl, rfl, rfl, fun c inside => by simp [isQuiet, digits.2 c inside]⟩

theorem passes_number {l : Lexeme} {source : Text} (spells : Spells l source)
    (number : l.kind = .number) : Rule.first? denylist source = none := by
  have quiet {ds : Text} (digits : Token.IsDigits ds) : ∀ c ∈ ds, isQuiet c = true :=
    fun c inside => by simp [isQuiet, digits.2 c inside]
  cases spells with
  | integer whole => exact passes_of_quiet (quiet whole)
  | decimal whole places =>
    refine passes_of_quiet (List.forall_mem_append.2 ⟨quiet whole, ?_⟩)
    exact List.forall_mem_cons.2 ⟨rfl, quiet places⟩
  | text | punct | name => cases number

end BranchGate
