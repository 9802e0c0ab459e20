import BranchGate.Proofs.Expr.Citations
import BranchGate.Proofs.Gate.Answers
import BranchGate.Proofs.Gate.Wording
import BranchGate.Proofs.Scan.Named
import BranchGate.Proofs.Token.LongestMatch

/-! What a reason tells of the input. Apart from limits and positions it is one name at most, and
that name stands in the input outside strings. -/
namespace BranchGate

/-- A name that stands outside the strings of a text. -/
def Named (s n : Text) : Prop := Text.isName n = true ∧ n <:+: mask s

/-- A part of a message that goes back to the configuration or to a trimmed text. -/
def Part.Told (config : Config) (s : Text) : Part → Prop
  | .phrase t => t ∈ phrases
  | .limit l => l = config.maxLength ∨ l = config.maxDepth
  | .position p => p < s.length
  | .name n => Named s n

def SyntaxError.Told (config : Config) (s : Text) : SyntaxError → Prop
  | .unexpectedCharacter p | .unterminatedString p | .unexpectedToken _ p => p < s.length
  | .nestedTooDeeply l => l = config.maxDepth
  | .propertyRefused n | .methodRefused n | .unknownIdentifier n => Named s n
  | .expected .. | .indexTarget | .indexKey | .unexpectedEnd | .trailingTokens => True

def Rejection.Told (config : Config) (s : Text) : Rejection → Prop
  | .tooLong l => l = config.maxLength
  | .denied rule => rule ∈ denylist
  | .method n | .identifier n => Named s n
  | .grammar cause => cause.Told config s
  | .empty | .parentheses | .brackets _ | .stackExhausted => True

def Failure.Told (config : Config) (s : Text) : Failure → Prop
  | .rejected cause => cause.Told config s
  | .escaped _ => True

section Parts

variable {config : Config} {s t l r : Text} {part : Part}

theorem told_plain (listed : t ∈ plainPhrases) : (Part.phrase t).Told config s :=
  plain_mem_phrases listed

theorem told_alone (listed : t ∈ plainPhrases) : ∀ p ∈ [Part.phrase t], p.Told config s :=
  List.forall_mem_singleton.2 (told_plain listed)

theorem told_introduced (left : l ∈ plainPhrases) (told : part.Told config s) :
    ∀ p ∈ [.phrase l, part], p.Told config s :=
  List.forall_mem_cons.2 ⟨told_plain left, List.forall_mem_singleton.2 told⟩

theorem told_framed (left : l ∈ plainPhrases) (told : part.Told config s)
    (right : r ∈ plainPhrases) : ∀ p ∈ [.phrase l, part, .phrase r], p.Told config s :=
  List.forall_mem_cons.2 ⟨told_plain left, List.forall_mem_cons.2 ⟨told, told_alone right⟩⟩

theorem SyntaxError.parts_told {cause : SyntaxError} (told : cause.Told config s) :
    ∀ part ∈ cause.parts, part.Told config s := by
  refine match cause, told with
    | .unexpectedCharacter _, told | .unterminatedString _, told => told_introduced ?_ told
    | .expected want got, _ => List.forall_mem_cons.2 ⟨told_plain ?_, List.forall_mem_cons.2
        ⟨label_mem_phrases want, told_introduced ?_ (label_mem_phrases got)⟩⟩
    | .nestedTooDeeply _, told => told_framed ?_ (.inr told) ?_
    | .propertyRefused _, told | .methodRefused _, told | .unknownIdentifier _, told =>
      told_framed ?_ told ?_
    | .unexpectedToken kind _, told => List.forall_mem_cons.2 ⟨told_plain ?_,
        List.forall_mem_cons.2 ⟨label_mem_phrases kind, told_introduced ?_ told⟩⟩
    | .indexTarget, _ | .indexKey, _ | .unexpectedEnd, _ | .trailingTokens, _ => told_alone ?_
  all_goals simp only [plainPhrases, List.mem_cons, true_or, or_true]

theorem Rejection.parts_told {cause : Rejection} (told : cause.Told config s) :
    ∀ part ∈ cause.parts, part.Told config s := by
  refine match cause, told with
    | .tooLong _, told => told_framed ?_ (.inl told) ?_
    | .denied _, told =>
      List.forall_mem_singleton.2 (rule_mem_phrases (List.mem_append_left _ told))
    | .brackets fault, _ => List.forall_mem_singleton.2 (fault_mem_phrases fault)
    | .method _, told | .identifier _, told => told_framed ?_ told ?_
    | .grammar _, told => List.forall_mem_cons.2 ⟨told_plain ?_, SyntaxError.parts_told told⟩
    | .empty, _ | .parentheses, _ | .stackExhausted, _ => told_alone ?_
  all_goals simp only [plainPhrases, List.mem_cons, true_or, or_true]

end Parts

namespace Token

variable {config : Config} {s : Text} {ts : List Token}

theorem lex_told {fault : SyntaxError} (stops : lex s = .error (.malformed fault)) :
    fault.Told config s := by
  obtain ⟨p, c, stands, _, rfl⟩ := isLeast_stuckAt stops
  have within : p < s.length := (List.getElem?_eq_some_iff.1 stands).1
  unfold faultAt
  split <;> exact within

theorem Lexed.pos_lt {t : Token} (lexed : Lexed 0 s ts) (member : t ∈ ts) : t.pos < s.length := by
  have stands := (lexed.source_at t member).2.length_le
  have content := List.length_pos_iff.2 (lexed.spells t member).ne_nil
  rw [List.length_drop] at stands
  omega

/-- What cites the tokens of a text tells of the text. -/
theorem Lexed.told {allowed : Expr.Allowance} {cause : SyntaxError} (lexed : Lexed 0 s ts)
    (cites : cause.Cites allowed ts)
    (known : ∀ l, cause = .nestedTooDeeply l → l = config.maxDepth) : cause.Told config s := by
  cases cause with
  | unexpectedCharacter | unterminatedString => cases cites
  | nestedTooDeeply l => exact known l rfl
  | propertyRefused n | methodRefused n | unknownIdentifier n =>
    obtain ⟨t, member, isName⟩ := cites
    exact name_stands lexed member isName
  | unexpectedToken kind p =>
    obtain ⟨t, member, rfl⟩ := cites
    exact lexed.pos_lt member
  | expected | indexTarget | indexKey | unexpectedEnd | trailingTokens => trivial

end Token

namespace Gate

variable {config : Config} {s : Text} {f : Failure}

theorem read_told {cause : SyntaxError}
    (fails : Expr.read (allowance config) s = .error (.malformed cause))
    (known : ∀ l, cause = .nestedTooDeeply l → l = config.maxDepth) : cause.Told config s := by
  rcases bind_eq_error.1 fails with stops | ⟨ts, lexed, stops⟩
  · exact Token.lex_told stops
  · exact (Token.lexed_of_lex lexed).told (Expr.parse_cites stops) known

theorem Fails.told (fails : Fails config s f) : f.Told config s := by
  cases fails with
  | length => rfl
  | denied found => exact List.mem_of_find?_eq_some found
  | method found => exact Scan.calledNames_stand (List.mem_of_find?_eq_some found)
  | identifier found =>
    obtain ⟨w, stray, rfl⟩ := Option.map_eq_some_iff.1 found
    exact Scan.words_stand (List.mem_of_find?_eq_some stray)
  | grammar read =>
    unfold grammarFailure
    split
    next => trivial
    next limit =>
      split
      next configured => exact configured
      next => trivial
    next cause shallow => exact read_told read fun l deep => absurd deep (shallow l)
  | parentheses | brackets | limit => trivial

end Gate

/-- A part of a message that is worded in advance, configured, or given by the input: a position in
the trimmed text, or a name that stands in the text outside strings. -/
def Part.Given (config : Config) (input : Value) : Part → Prop
  | .phrase t => t ∈ phrases
  | .limit l => l = config.maxLength ∨ l = config.maxDepth
  | .position p => ∃ t, input = .text t ∧ p < (Text.trim t).length
  | .name n => Text.isName n = true ∧ ∃ t, input = .text t ∧ ShownIn t n

theorem Part.Told.given {config : Config} {t : Text} {part : Part}
    (told : part.Told config (Text.trim t)) : part.Given config (.text t) := by
  cases part with
  | phrase | limit => exact told
  | position p => exact ⟨t, rfl, told⟩
  | name n =>
    obtain ⟨named, inside⟩ := told
    exact ⟨named, t, rfl, shownIn_of_infix named (infix_mask_of_trim inside)⟩

theorem Part.Given.harmless {config : Config} {input : Value} {part : Part}
    (given : part.Given config input) : ∀ c ∈ part.text, Text.isHarmless c = true := by
  cases part with
  | phrase t => exact List.all_eq_true.1 (harmless_phrases t given)
  | limit l => exact harmless_limit l
  | position p => exact harmless_ofNat p
  | name n => exact fun c inside => harmless_of_isNameChar (Text.isNameChar_of_mem given.1 inside)

namespace Gate

variable {config : Config} {input : Value} {reason : Text}

theorem compile_given {cause : Rejection}
    (failed : compile config input = .error (.rejected cause)) :
    ∀ part ∈ cause.parts, part.Given config input := by
  have empty : ∀ part ∈ Rejection.empty.parts, part.Given config input :=
    List.forall_mem_singleton.2 (plain_mem_phrases (List.mem_cons_of_mem _ List.mem_cons_self))
  cases input with
  | text t =>
    by_cases blank : Text.allBlank t = true
    · simp only [compile, blank, ↓reduceIte] at failed
      cases failed
      exact empty
    · simp only [compile, blank] at failed
      have told : cause.Told config (Text.trim t) := (compileTrimmed_fails _ failed).told
      exact fun part member => (Rejection.parts_told told part member).given
  | _ => cases failed; exact empty

/-- A reason that is put together as one of the gate's messages. -/
def Composed (config : Config) (input : Value) (reason : Text) : Prop :=
  ∃ parts, reason = spell parts ∧ parts.length ≤ 5 ∧ parts.countP Part.isName ≤ 1 ∧
    ∀ part ∈ parts, part.Given config input

theorem composed_phrase (listed : reason ∈ phrases) : Composed config input reason :=
  ⟨[.phrase reason], (List.append_nil reason).symm, Nat.le_of_ble_eq_true rfl, Nat.zero_le 1,
    List.forall_mem_singleton.2 listed⟩

theorem composed_validate (refused : validate config input = .ok (.invalid reason)) :
    Composed config input reason := by
  unfold validate at refused
  split at refused
  next => cases refused
  next cause failed =>
    cases refused
    exact ⟨cause.parts, cause.message_eq, cause.parts_bounded.1, cause.parts_bounded.2,
      compile_given failed⟩
  next => cases refused

theorem composed_preValidate (refused : preValidate input = .invalid reason) :
    Composed config input reason := by
  have empty : Composed config input emptyInput :=
    composed_phrase (plain_mem_phrases List.mem_cons_self)
  unfold preValidate at refused
  split at refused
  next => cases refused; exact empty
  next t _ =>
    split at refused
    next rule found =>
      cases refused
      exact composed_phrase
        (rule_mem_phrases (List.mem_append_right _ (List.mem_of_find?_eq_some found)))
    next => cases refused
  next => cases refused; exact empty

theorem reason_ne_nil (refused : validate config input = .ok (.invalid reason) ∨
    preValidate input = .invalid reason) : reason ≠ [] := by
  rcases refused with refused | refused
  · rcases validate_answers config input with ⟨verdict, answer, reasoned⟩ | ⟨cause, escaped, _⟩
    · rw [refused] at answer
      cases answer
      exact reasoned
    · rw [refused] at escaped
      cases escaped
  · have reasoned := preValidate_reasoned input
    rwa [refused] at reasoned

theorem Composed.harmless (composed : Composed config input reason) :
    ∀ c ∈ reason, Text.isHarmless c = true := by
  obtain ⟨parts, rfl, _, _, given⟩ := composed
  intro c inside
  obtain ⟨part, member, inside⟩ := List.mem_flatMap.1 inside
  exact (given part member).harmless c inside

/-- The reason of a refusal has content, is printable and free of markup, and consists of wordings,
configured limits, positions and at most one name, which stands in the input outside strings. -/
theorem reason_tells_one_name (config : Config) (input : Value) (reason : Text)
    (refused : validate config input = .ok (.invalid reason) ∨
      preValidate input = .invalid reason) :
    reason ≠ [] ∧ (∀ c ∈ reason, Text.isHarmless c = true) ∧
      ∃ parts, reason = spell parts ∧ parts.length ≤ 5 ∧ parts.countP Part.isName ≤ 1 ∧
        ∀ part ∈ parts, part.Given config input := by
  have composed : Composed config input reason := by
    rcases refused with refused | refused
    · exact composed_validate refused
    · exact composed_preValidate refused
  exact ⟨reason_ne_nil refused, composed.harmless, composed⟩

/-- The markup in the string is not told. -/
theorem reason_tells_one_name_markup :
    ∃ reason : Text, reason = ("Unknown identifier \"foo\"" : String).toList ∧
      validate Config.default (.text ("foo == '<b>'" : String).toList) = .ok (.invalid reason) ∧
      reason ≠ [] ∧ (∀ c ∈ reason, Text.isHarmless c = true) ∧
      ∃ parts, reason = spell parts ∧ parts.length ≤ 5 ∧ parts.countP Part.isName ≤ 1 ∧
        ∀ part ∈ parts, part.Given Config.default (.text ("foo == '<b>'" : String).toList) := by
  have refused : validate Config.default (.text ("foo == '<b>'" : String).toList) =
      .ok (.invalid ("Unknown identifier \"foo\"" : String).toList) :=
    eq_ok_of_toOption (by decide +kernel)
  exact ⟨_, rfl, refused, reason_tells_one_name _ _ _ (.inl refused)⟩

end Gate
end BranchGate
