import BranchGate.Gate
import BranchGate.Proofs.Text.Classes

/-! How a refusal is worded. Every message is put together from a closed list of phrases, limits,
positions and at most one name, and all of these are printable and free of markup. -/
namespace BranchGate

/-- Printable ASCII but for `&`, `<` and `>`. -/
def Text.isHarmless (c : Char) : Bool :=
  let n := c.toNat
  0x20 ≤ n && n ≤ 0x7E && n != 0x26 && n != 0x3C && n != 0x3E

/-- A part of a message. -/
inductive Part
  | phrase (t : Text)
  | limit (l : Limit)
  | position (p : Nat)
  | name (n : Text)
  deriving DecidableEq, Repr

namespace Part

def text : Part → Text
  | .phrase t => t
  | .limit l => l.text
  | .position p => Text.ofNat p
  | .name n => n

def isName : Part → Bool
  | .name _ => true
  | .phrase _ | .limit _ | .position _ => false

end Part

def spell (parts : List Part) : Text := parts.flatMap Part.text

def SyntaxError.parts : SyntaxError → List Part
  | .unexpectedCharacter pos => [.phrase "unexpected character at position ", .position pos]
  | .unterminatedString pos =>
    [.phrase "unterminated string literal at position ", .position pos]
  | .expected want got =>
    [.phrase "expected ", .phrase want.label, .phrase ", got ", .phrase got.label]
  | .nestedTooDeeply limit =>
    [.phrase "expression is nested too deeply (max ", .limit limit, .phrase " levels)"]
  | .propertyRefused name => [.phrase "property \"", .name name, .phrase "\" is not allowed"]
  | .methodRefused name => [.phrase "method \"", .name name, .phrase "\" is not allowed"]
  | .indexTarget => [.phrase "indexing is only allowed directly on workflow variables"]
  | .indexKey => [.phrase "index must be an integer or a string literal"]
  | .unknownIdentifier name => [.phrase "unknown identifier \"", .name name, .phrase "\""]
  | .unexpectedEnd => [.phrase "unexpected end of expression"]
  | .unexpectedToken kind pos =>
    [.phrase "unexpected token ", .phrase kind.label, .phrase " at position ", .position pos]
  | .trailingTokens => [.phrase "unexpected tokens after expression"]

def Rejection.parts : Rejection → List Part
  | .empty => [.phrase "Condition expression cannot be empty"]
  | .tooLong limit =>
    [.phrase "Condition expression is too long (max ", .limit limit, .phrase " characters)"]
  | .denied rule => [.phrase rule.message]
  | .parentheses => [.phrase "Unbalanced parentheses"]
  | .brackets fault => [.phrase fault.message]
  | .method name => [.phrase "Method \"", .name name, .phrase "\" is not allowed"]
  | .identifier name => [.phrase "Unknown identifier \"", .name name, .phrase "\""]
  | .grammar cause => .phrase "Invalid condition syntax: " :: cause.parts
  | .stackExhausted =>
    [.phrase "Invalid condition syntax: expression is nested too deeply"]

theorem spell_cons (part : Part) (parts : List Part) :
    spell (part :: parts) = part.text ++ spell parts := rfl

theorem spell_nil : spell [] = [] := rfl

theorem SyntaxError.message_eq (cause : SyntaxError) : cause.message = spell cause.parts := by
  cases cause <;> delta message parts <;>
    simp only [spell_cons, spell_nil, Part.text, List.append_nil, List.append_assoc]

theorem Rejection.message_eq (cause : Rejection) : cause.message = spell cause.parts := by
  cases cause <;> delta message parts <;>
    simp only [spell_cons, spell_nil, Part.text, List.append_nil, List.append_assoc,
      SyntaxError.message_eq]

/-- Longer than five parts no message is, and it holds one name at most. -/
theorem Rejection.parts_bounded (cause : Rejection) :
    cause.parts.length ≤ 5 ∧ cause.parts.countP Part.isName ≤ 1 := by
  cases cause with
  | grammar cause =>
    cases cause <;> exact ⟨Nat.le_of_ble_eq_true rfl, Nat.le_of_ble_eq_true rfl⟩
  | _ => exact ⟨Nat.le_of_ble_eq_true rfl, Nat.le_of_ble_eq_true rfl⟩

def Kind.all : List Kind := [.number, .string, .name, .ending] ++ Punct.all.map .punct

def Scan.BracketFault.all : List Scan.BracketFault := [.nested, .base, .unbalanced, .content]

/-- The wordings of messages that name no rule, no bracket and no kind of token. -/
def plainPhrases : List Text :=
  [Gate.emptyInput, "Condition expression cannot be empty",
    "Condition expression is too long (max ", " characters)", "Unbalanced parentheses",
    "Method \"", "\" is not allowed", "Unknown identifier \"", "\"", "Invalid condition syntax: ",
    "Invalid condition syntax: expression is nested too deeply",
    "unexpected character at position ", "unterminated string literal at position ", "expected ",
    ", got ", "expression is nested too deeply (max ", " levels)", "property \"", "method \"",
    "indexing is only allowed directly on workflow variables",
    "index must be an integer or a string literal", "unknown identifier \"",
    "unexpected end of expression", "unexpected token ", " at position ",
    "unexpected tokens after expression"]

/-- The wordings of all messages, with nothing of a text or a configuration in them. -/
def phrases : List Text :=
  plainPhrases ++ (Kind.all.map Kind.label ++
    (Scan.BracketFault.all.map Scan.BracketFault.message ++
      (denylist ++ keywordRules).map Rule.message))

theorem plain_mem_phrases {t : Text} (listed : t ∈ plainPhrases) : t ∈ phrases :=
  List.mem_append_left _ listed

theorem label_mem_phrases (kind : Kind) : kind.label ∈ phrases := by
  have listed : kind ∈ Kind.all := by
    cases kind with
    | punct p => exact List.mem_append_right _ (List.mem_map_of_mem p.mem_all)
    | _ => decide
  exact List.mem_append_right _ (List.mem_append_left _ (List.mem_map_of_mem listed))

theorem fault_mem_phrases (fault : Scan.BracketFault) : fault.message ∈ phrases := by
  have listed : fault ∈ Scan.BracketFault.all := by cases fault <;> decide
  exact List.mem_append_right _ (List.mem_append_right _
    (List.mem_append_left _ (List.mem_map_of_mem listed)))

theorem rule_mem_phrases {rule : Rule} (listed : rule ∈ denylist ++ keywordRules) :
    rule.message ∈ phrases :=
  List.mem_append_right _ (List.mem_append_right _
    (List.mem_append_right _ (List.mem_map_of_mem listed)))

theorem harmless_phrases : ∀ t ∈ phrases, t.all Text.isHarmless = true := by decide +kernel

theorem harmless_of_isNameChar {c : Char} (inner : Text.isNameChar c = true) :
    Text.isHarmless c = true := by
  have range : c.toNat ≠ 0x26 ∧ c.toNat ≠ 0x3C ∧ c.toNat ≠ 0x3E := by
    rcases Bool.or_eq_true_iff.1 inner with start | digit
    · have range := Text.isNameStart_range start
      omega
    · have range := Text.isDigit_range digit
      omega
  have bounds := Text.isNameChar_range inner
  simp only [Text.isHarmless, Bool.and_eq_true, decide_eq_true_eq, bne_iff_ne]
  omega

theorem harmless_ofNat (n : Nat) : ∀ c ∈ Text.ofNat n, Text.isHarmless c = true := fun _ inside =>
  harmless_of_isNameChar (Text.isNameChar_of_isDigit
    (Nat.isDigit_of_mem_toDigits (by decide) (by decide) inside))

theorem harmless_limit (l : Limit) : ∀ c ∈ l.text, Text.isHarmless c = true := by
  cases l with
  | count n =>
    cases n with
    | ofNat n => exact harmless_ofNat n
    | negSucc n => exact List.forall_mem_cons.2 ⟨by decide, harmless_ofNat (n + 1)⟩
  | flag b => exact List.all_eq_true.1 (by cases b <;> decide +kernel)

end BranchGate
