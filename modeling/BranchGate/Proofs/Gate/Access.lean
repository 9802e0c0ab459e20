import BranchGate.Proofs.Expr.InStep
import BranchGate.Proofs.Gate.Limits
import BranchGate.Proofs.Rule.Names
import BranchGate.Proofs.Rule.Tokens
import BranchGate.Proofs.Scan.Bases
import BranchGate.Proofs.Scan.Faults
import BranchGate.Proofs.Token.Layout

/-! The two ways to a part of a variable: a property after a dot and a quoted key in brackets. The
denylist says the same of both; what begins with two underscores is refused after the dot only. -/
namespace BranchGate.Gate

open BranchGate.Expr (lexemes)

def dotted (v n : Text) : Text := v ++ '.' :: n

def keyed (v n : Text) : Text := v ++ '[' :: '\x27' :: (n ++ ['\x27', ']'])

variable {config : Config} {s v n : Text} {ts : List Token} {e : Expr}

theorem not_mem_name {c : Char} (named : Text.isName n = true) (other : Text.isNameChar c = false) :
    c ∉ n := by
  intro inside
  rw [Text.isNameChar_of_mem named inside] at other
  cases other

/-- What stands around a name in either way. -/
def accessMarks : Text := ['.', '[', ']', '\x27']

/-- A text of names and these marks only. -/
def Bare (s : Text) : Prop := ∀ c ∈ s, Text.isNameChar c = true ∨ c ∈ accessMarks

namespace Bare

theorem not_mem {c : Char} (bare : Bare s) (outside : Text.isNameChar c = false)
    (other : c ∉ accessMarks) : c ∉ s := by
  intro inside
  rcases bare c inside with inner | mark
  · cases inner.symm.trans outside
  · exact other mark

theorem trim (bare : Bare s) : Text.trim s = s := by
  have ink {c : Char} (mark : c ∈ accessMarks) : Text.isBlank c = false := by
    simp only [accessMarks, List.mem_cons, List.not_mem_nil, or_false] at mark
    rcases mark with rfl | rfl | rfl | rfl <;> decide
  exact Text.trim_of_ink fun c inside => (bare c inside).elim Text.isBlank_of_isNameChar ink

theorem balanced (bare : Bare s) : Scan.parenthesesBalance s = true := by
  have opens : '(' ∉ s := bare.not_mem (by decide) (by decide)
  have closes : ')' ∉ s := bare.not_mem (by decide) (by decide)
  rw [Scan.parenthesesBalance, List.count_eq_zero.2 opens, List.count_eq_zero.2 closes]
  rfl

/-- Without parentheses in the text there are none among its tokens. -/
theorem based (bare : Bare s) (laid : Token.Lexed 0 s ts) :
    ¬[.punct .closeParen, .punct .openBracket] <:+: lexemes ts := by
  intro inside
  obtain ⟨t, member, isClose⟩ := List.mem_map.1 (inside.subset List.mem_cons_self)
  have spells := laid.spells t member
  rw [isClose] at spells
  have stands := (laid.source_at t member).2.subset
  rw [spells.punct_source] at stands
  exact bare.not_mem (by decide) (by decide) (List.mem_of_mem_drop (stands List.mem_cons_self))

end Bare

theorem bare_dotted (named : Text.isName v = true) (named' : Text.isName n = true) :
    Bare (dotted v n) := by
  intro c inside
  rcases List.mem_append.1 inside with inner | inside
  · exact .inl (Text.isNameChar_of_mem named inner)
  rcases List.mem_cons.1 inside with rfl | inner
  · exact .inr (by decide)
  · exact .inl (Text.isNameChar_of_mem named' inner)

theorem bare_keyed (named : Text.isName v = true) (named' : Text.isName n = true) :
    Bare (keyed v n) := by
  intro c inside
  simp only [keyed, List.mem_append, List.mem_cons, List.not_mem_nil, or_false] at inside
  rcases inside with inner | rfl | rfl | inner | rfl | rfl
  · exact .inl (Text.isNameChar_of_mem named inner)
  · exact .inr (by decide)
  · exact .inr (by decide)
  · exact .inl (Text.isNameChar_of_mem named' inner)
  · exact .inr (by decide)
  · exact .inr (by decide)

/-- What the gate still asks of a bare text that the grammar derives without nesting. -/
theorem validate_derived (bare : Bare s) (lexed : Token.lex s = .ok ts)
    (derived : Expr.DerivesAll config.methods (lexemes ts) e 0)
    (short : (s.length : Int) ≤ config.maxLength.value) :
    validate config (.text s) = .ok .valid ↔
      config.maxIndexDigits.value < Scan.repetitionBound ∧
        (∀ t ∈ ts, t.lexeme.isOverlong = false) ∧
        Scan.AllowedKeys config.maxIndexDigits ts ∧
        ∀ t ∈ ts, Rule.first? denylist t.source = none := by
  have laid := Token.lexed_of_lex lexed
  have denied := laid.passes_iff denylist_regular (Expr.joined_of_derives derived).beside
  have brackets : Scan.bracketFault? config.maxIndexDigits s = none ↔ _ :=
    Scan.bracketFault?_derived laid derived
  simp only [validate_eq_valid, compile_text_eq_ok, bare.trim]
  constructor
  · rintro ⟨e', accepted⟩
    obtain ⟨_, d, lexed', readable, _⟩ := derives_of_compileTrimmed accepted
    cases lexed.symm.trans lexed'
    obtain ⟨_, passes, _, ⟨small, faultless⟩, _⟩ := compileTrimmed_eq_ok.1 accepted
    exact ⟨small, readable, (brackets.1 faultless).1, denied.1 passes⟩
  · rintro ⟨small, readable, keys, passes⟩
    have parsed : Expr.parse (allowance config) ts = .ok e :=
      Expr.parse_of_derives readable (Nat.zero_le _) derived
    have read : Expr.read (allowance config) s = .ok e := bind_eq_ok.2 ⟨ts, lexed, parsed⟩
    obtain ⟨methods, identifiers⟩ := scans_of_read read
    exact ⟨e, compileTrimmed_eq_ok.2 ⟨short, denied.2 passes, bare.balanced,
      ⟨small, brackets.2 ⟨keys, bare.based laid⟩⟩, methods, identifiers, read⟩⟩

def dottedTokens (v n : Text) : List Token :=
  [⟨.name v, v, 0⟩, ⟨.punct .dot, ['.'], v.length⟩, ⟨.name n, n, v.length + 1⟩]

def keyedTokens (v n : Text) : List Token :=
  [⟨.name v, v, 0⟩, ⟨.punct .openBracket, ['['], v.length⟩,
    ⟨.text n, '\x27' :: (n ++ ['\x27']), v.length + 1⟩,
    ⟨.punct .closeBracket, [']'], v.length + 1 + (n.length + 2)⟩]

theorem lex_dotted (named : Text.isName v = true) (named' : Text.isName n = true) :
    Token.lex (dotted v n) = .ok (dottedTokens v n) := by
  have last : Token.Lexed (v.length + 1) n [⟨.name n, n, v.length + 1⟩] := by
    simpa using Token.Lexed.token (.name named') (Token.Spells.apart_nil (.name named')) .done
  have point : Token.Lexed v.length ('.' :: n) _ :=
    .token (.punct .dot) (Token.apart_mark .dot (Token.begun_name named').next) last
  have clear : Token.Clear ('.' :: n) := by
    simpa using (Token.clear_property named' : Token.Clear ('.' :: (n ++ [])))
  have first : Token.Lexed 0 (dotted v n) _ :=
    .token (.name named) (clear.apart (.name named)) (by simpa using point)
  exact Token.lex_eq_ok.2 first

theorem quoted_name (named : Text.isName n = true) : Token.Quoted .single n := by
  have plain : ∀ c ∈ n, c ≠ Quote.single.char ∧ c ≠ '\\' := fun c inside =>
    ⟨fun same => not_mem_name named (Text.isNameChar_quote .single) (same ▸ inside),
      fun same => not_mem_name named (by decide : Text.isNameChar '\\' = false) (same ▸ inside)⟩
  clear named
  induction n with
  | nil => exact .nil
  | cons c rest ih =>
    obtain ⟨first, others⟩ := List.forall_mem_cons.1 plain
    exact .plain first.1 first.2 (ih others)

theorem spells_key (named : Text.isName n = true) :
    Token.Spells (.text n) ('\x27' :: (n ++ ['\x27'])) := by
  have spells := Token.Spells.text (quoted_name named)
  rwa [Token.unescape_plain
    (not_mem_name named (by decide : Text.isNameChar '\\' = false))] at spells

theorem lex_keyed (named : Text.isName v = true) (named' : Text.isName n = true) :
    Token.lex (keyed v n) = .ok (keyedTokens v n) := by
  have last : Token.Lexed (v.length + 1 + (n.length + 2)) [']'] [_] :=
    .token (.punct .closeBracket) (Token.Spells.apart_nil (.punct .closeBracket)) .done
  have key : Token.Lexed (v.length + 1) ('\x27' :: (n ++ ['\x27']) ++ [']']) _ :=
    .token (spells_key named') trivial (by simpa using last)
  have opening : Token.Lexed v.length ('[' :: ('\x27' :: (n ++ ['\x27']) ++ [']'])) _ :=
    .token (.punct .openBracket) (Token.apart_mark .openBracket (by simp)) key
  have clear : Token.Clear ('[' :: ('\x27' :: (n ++ ['\x27']) ++ [']'])) :=
    Token.clear_cons (by decide) (by decide)
  have first : Token.Lexed 0 (v ++ '[' :: ('\x27' :: (n ++ ['\x27']) ++ [']'])) _ :=
    .token (.name named) (clear.apart (.name named)) (by simpa using opening)
  have same : keyed v n = v ++ '[' :: ('\x27' :: (n ++ ['\x27']) ++ [']']) := by simp [keyed]
  rw [same]
  exact Token.lex_eq_ok.2 first

section Derived

variable {digits : Text}

theorem derivesAll_of_suffixed {methods : List Text} {lexs : List Lexeme} {d : Nat}
    (derived : Expr.Derives methods .suffixed lexs e d) : Expr.DerivesAll methods lexs e d :=
  .tighter (.tighter (.tighter (.tighter (.operand (.ofSuffixed derived)))))

theorem derives_dotted (known : variableDigits? v = some digits)
    (property : Expr.isProperty n = true) : Expr.DerivesAll config.methods
      (lexemes (dottedTokens v n)) (.member (.variable (Text.toNat digits)) n) 0 :=
  derivesAll_of_suffixed (.member (.ofPrimary (.variable known)) property)

theorem derives_keyed (known : variableDigits? v = some digits) :
    Expr.DerivesAll config.methods (lexemes (keyedTokens v n))
      (.index (Text.toNat digits) (.text n)) 0 :=
  derivesAll_of_suffixed (.index (.ofPrimary (.variable known)) rfl)

end Derived

theorem first?_key (n : Text) :
    Rule.first? denylist ('\x27' :: (n ++ ['\x27'])) = none ↔ Rule.first? denylist n = none := by
  have quote : Rule.first? denylist ['\x27'] = none := by decide +kernel
  have plain := plain_quote .single
  have word := Text.isWord_quote .single
  have before : ∀ x ∈ (['\x27'] : Text).getLast?, ∀ y ∈ (n ++ ['\x27']).head?, SetApart x y := by
    rintro _ ⟨⟩ y _
    exact plain.setApart_left (.inl word)
  have after : ∀ x ∈ n.getLast?, ∀ y ∈ (['\x27'] : Text).head?, SetApart x y := by
    rintro x _ _ ⟨⟩
    exact plain.setApart_right (.inr word)
  rw [← List.singleton_append, Rule.first?_append denylist_regular before,
    Rule.first?_append denylist_regular after]
  exact ⟨fun passes => passes.2.1, fun passes => ⟨quote, passes, quote⟩⟩

/-- A name that stands after a dot in a valid text is one that may. -/
theorem isProperty_of_valid (bare : Bare s) (lexed : Token.lex s = .ok ts)
    (written : [.punct .dot, .name n] <:+: lexemes ts)
    (valid : validate config (.text s) = .ok .valid) : Expr.isProperty n = true := by
  obtain ⟨e, accepted⟩ := validate_eq_valid.1 valid
  rw [compile_text_eq_ok, bare.trim] at accepted
  obtain ⟨ts', d, lexed', _, _, derived⟩ := derives_of_compileTrimmed accepted
  cases lexed.symm.trans lexed'
  have beside := (Expr.joined_of_derives derived).beside
  have chain := beside.infix written
  cases (List.isChain_cons_cons.1 chain).1 with
  | before leads _ => exact absurd leads (by decide)
  | property shown => exact shown

theorem passes_variable (isVar : isVariable v = true) : Rule.first? denylist v = none :=
  passes_known (.inr isVar)

theorem allowedKeys_keyed (limit : Limit) (named : Text.isName n = true) :
    Scan.AllowedKeys limit (keyedTokens v n) := by
  have quoted : Scan.isQuotedKey ('\x27' :: (n ++ ['\x27'])) = true :=
    Scan.isQuotedKey_iff.2 ⟨.single, n, rfl, not_mem_name named (Text.isNameChar_quote .single),
      not_mem_name named (by decide)⟩
  rw [keyedTokens, Scan.allowedKeys_other (by simp), Scan.allowedKeys_key rfl (by simp),
    Scan.allowedKeys_other (by simp)]
  refine ⟨.inr quoted, fun opening key written => ?_⟩
  exact absurd written.length_le (by simp)

section Access

variable (isVar : isVariable v = true) (named : Text.isName n = true)

include isVar named

theorem validate_keyed (short : ((keyed v n).length : Int) ≤ config.maxLength.value) :
    validate config (.text (keyed v n)) = .ok .valid ↔
      config.maxIndexDigits.value < Scan.repetitionBound ∧
        (Lexeme.name v).isOverlong = false ∧ Rule.first? denylist n = none := by
  obtain ⟨digits, known⟩ := Option.isSome_iff_exists.1 isVar
  have base := Scan.isName_of_isVariable isVar
  have readable : (∀ t ∈ keyedTokens v n, t.lexeme.isOverlong = false) ↔
      (Lexeme.name v).isOverlong = false := by
    simp [keyedTokens, Lexeme.isOverlong]
  have passes : (∀ t ∈ keyedTokens v n, Rule.first? denylist t.source = none) ↔
      Rule.first? denylist n = none := by
    have opening := passes_marks .openBracket (Punct.mem_all _)
    have closing := passes_marks .closeBracket (Punct.mem_all _)
    rw [← first?_key n]
    simp only [keyedTokens, List.forall_mem_cons, passes_variable isVar, true_and]
    exact ⟨fun all => all.2.1, fun key => ⟨opening, key, closing, List.forall_mem_nil _⟩⟩
  rw [validate_derived (bare_keyed base named) (lex_keyed base named) (derives_keyed known) short,
    readable, passes, and_iff_right (allowedKeys_keyed config.maxIndexDigits named)]

theorem validate_dotted (short : ((dotted v n).length : Int) ≤ config.maxLength.value) :
    validate config (.text (dotted v n)) = .ok .valid ↔
      (config.maxIndexDigits.value < Scan.repetitionBound ∧
        (Lexeme.name v).isOverlong = false ∧ Rule.first? denylist n = none) ∧
      isHiddenProperty n = false := by
  obtain ⟨digits, known⟩ := Option.isSome_iff_exists.1 isVar
  have base := Scan.isName_of_isVariable isVar
  have bare := bare_dotted base named
  have lexed := lex_dotted base named
  have written : [.punct .dot, .name n] <:+: lexemes (dottedTokens v n) := ⟨[.name v], [], rfl⟩
  cases hidden : isHiddenProperty n with
  | true =>
    refine iff_of_false (fun valid => ?_) fun gated => absurd gated.2 (by decide)
    have property := isProperty_of_valid bare lexed written valid
    rw [Expr.isProperty, hidden] at property
    cases property
  | false =>
    have property : Expr.isProperty n = true := by rw [Expr.isProperty, hidden]; rfl
    have readable : (∀ t ∈ dottedTokens v n, t.lexeme.isOverlong = false) ↔
        (Lexeme.name v).isOverlong = false := by
      have point : (Lexeme.punct .dot).isOverlong = false := rfl
      simp [dottedTokens, point, Expr.isOverlong_property hidden]
    have keys : Scan.AllowedKeys config.maxIndexDigits (dottedTokens v n) := by
      rw [dottedTokens, Scan.allowedKeys_other (by simp), Scan.allowedKeys_other (by simp),
        Scan.allowedKeys_other (by simp)]
      exact fun opening key written => absurd written.length_le (by simp)
    have passes : (∀ t ∈ dottedTokens v n, Rule.first? denylist t.source = none) ↔
        Rule.first? denylist n = none := by
      have point := passes_marks .dot (Punct.mem_all _)
      simp only [dottedTokens, List.forall_mem_cons, passes_variable isVar, true_and]
      exact ⟨fun all => all.2.1, fun name => ⟨point, name, List.forall_mem_nil _⟩⟩
    rw [validate_derived bare lexed (derives_dotted known property) short, readable,
      passes, and_iff_right keys, and_iff_left rfl]

/-- A key is refused with the property of its name, but for names that begin with two underscores:
these pass as keys. Everything else that the gate looks at is the same for both. -/
theorem access_gated_alike (short : ((keyed v n).length : Int) ≤ config.maxLength.value) :
    (validate config (.text (dotted v n)) = .ok .valid ↔
      validate config (.text (keyed v n)) = .ok .valid ∧ isHiddenProperty n = false) ∧
    (validate config (.text (keyed v n)) = .ok .valid ↔
      config.maxIndexDigits.value < Scan.repetitionBound ∧ v.length ≤ digitLimit + 3 ∧
        Rule.first? denylist n = none) := by
  have shorter : (dotted v n).length ≤ (keyed v n).length := by simp [dotted, keyed]
  have short' : ((dotted v n).length : Int) ≤ config.maxLength.value := by omega
  have readable : (Lexeme.name v).isOverlong = false ↔ v.length ≤ digitLimit + 3 := by
    obtain ⟨digits, rfl, isDigits⟩ := Expr.isVariable_cases isVar
    have known : variableDigits? ('_' :: '_' :: 'v' :: digits) = some digits := by
      simpa [variableDigits?, Token.IsDigits] using isDigits
    simp [Lexeme.isOverlong, known]
  rw [validate_dotted isVar named short', validate_keyed isVar named short, readable]
  exact ⟨Iff.rfl, Iff.rfl⟩

end Access

theorem access_gated_alike_name :
    isVariable ("__v07" : String).toList = true ∧ Text.isName ("name" : String).toList = true ∧
      validate Config.default (.text (dotted ("__v07" : String).toList ("name" : String).toList)) =
        .ok .valid ∧
      validate Config.default (.text (keyed ("__v07" : String).toList ("name" : String).toList)) =
        .ok .valid := by
  have isVar : isVariable ("__v07" : String).toList = true := by decide
  have named : Text.isName ("name" : String).toList = true := by decide
  have short : ((keyed ("__v07" : String).toList ("name" : String).toList).length : Int) ≤
      Config.default.maxLength.value := by decide
  obtain ⟨alike, gated⟩ := access_gated_alike isVar named short
  have valid := gated.2 ⟨by decide, by decide, by decide +kernel⟩
  exact ⟨isVar, named, alike.2 ⟨valid, by decide⟩, valid⟩

/-- A hidden property is refused after the dot and passes between quotes. -/
theorem access_not_gated_alike : ¬∀ (config : Config) (v n : Text), isVariable v = true →
    Text.isName n = true → ((dotted v n).length : Int) ≤ config.maxLength.value →
    ((keyed v n).length : Int) ≤ config.maxLength.value →
    (validate config (.text (dotted v n)) = .ok .valid ↔
      validate config (.text (keyed v n)) = .ok .valid) := by
  intro alike
  have gated := alike Config.default ("__v0" : String).toList ("__defineGetter__" : String).toList
    (by decide) (by decide) (by decide) (by decide)
  have accepted : compile Config.default (.text (keyed ("__v0" : String).toList
      ("__defineGetter__" : String).toList)) =
        .ok (.index 0 (.text ("__defineGetter__" : String).toList)) :=
    eq_ok_of_toOption (by decide +kernel)
  obtain ⟨e, refused⟩ := validate_eq_valid.1 (gated.2 (validate_eq_valid.2 ⟨_, accepted⟩))
  have none : (compile Config.default (.text (dotted ("__v0" : String).toList
      ("__defineGetter__" : String).toList))).toOption = none := by decide +kernel
  rw [refused] at none
  cases none

end BranchGate.Gate
