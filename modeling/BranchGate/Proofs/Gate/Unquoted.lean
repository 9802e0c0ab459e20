import BranchGate.Proofs.Gate.Limits
import BranchGate.Proofs.Rule.Names
import BranchGate.Proofs.Scan.Bases
import BranchGate.Proofs.Scan.Parentheses

/-! Conditions without strings. What the grammar reads there passes the scans of raw text, apart
from keywords in the names of properties, long indexes and brackets after a parenthesis. -/
namespace BranchGate

open Token (Lexed Spells)

variable {s t : Text} {ts : List Token}

namespace Token

theorem Lexed.source_subset {pos : Nat} (lexed : Lexed pos s ts) :
    ∀ t ∈ ts, ∀ c ∈ t.source, c ∈ s := fun t member _ inside =>
  List.mem_of_mem_drop ((lexed.source_at t member).2.subset inside)

/-- A text without quotes has no strings. -/
theorem Lexed.code_of_unquoted {pos : Nat} (lexed : Lexed pos s ts)
    (unquoted : ∀ c ∈ s, Quote.ofChar? c = none) : ∀ t ∈ ts, ∀ data, t.lexeme ≠ .text data := by
  intro t member data isText
  have spells := lexed.spells t member
  rw [isText] at spells
  obtain ⟨q, body, source, _⟩ := spells.text_source
  have quote := unquoted q.char (lexed.source_subset t member q.char (by simp [source]))
  rw [Quote.ofChar?_char] at quote
  cases quote

end Token

/-- Only names can be denied where no string is. -/
theorem passes_unnamed {l : Lexeme} {source : Text} (spells : Spells l source)
    (code : ∀ data, l ≠ .text data) (unnamed : ∀ n, l ≠ .name n) :
    Rule.first? denylist source = none := by
  cases l with
  | integer | decimal => exact passes_number spells rfl
  | text data => exact absurd rfl (code data)
  | punct p =>
    rw [spells.punct_source]
    exact passes_marks p (Punct.mem_all p)
  | name n => exact absurd rfl (unnamed n)

theorem passes_symbols {l : Lexeme} {source : Text} (spells : Spells l source)
    (code : ∀ data, l ≠ .text data) : Rule.first? symbolRules source = none := by
  by_cases named : ∃ n, l = .name n
  · obtain ⟨n, rfl⟩ := named
    obtain ⟨rfl, named⟩ := spells.name_source
    exact passes_name named
  · exact (Rule.first?_denylist.1 (passes_unnamed spells code (not_exists.1 named))).1

/-- The words of a derived text that can be denied are the names after a dot. -/
theorem wordRules_iff {methods : List Text} {form : Expr.Form} {e : Expr} {d : Nat}
    (lexed : Lexed 0 s ts) (code : ∀ t ∈ ts, ∀ data, t.lexeme ≠ .text data)
    (derived : Expr.Derives methods form (ts.map Token.lexeme) e d) :
    Rule.first? wordRules s = none ↔ ∀ n, [.punct .dot, .name n] <:+: ts.map Token.lexeme →
      Rule.first? wordRules n = none := by
  rw [lexed.passes_iff wordRules_regular (Expr.joined_of_derives derived).beside]
  constructor
  · intro passes n written
    obtain ⟨t, member, isName⟩ := List.mem_map.1 (written.subset (by simp : Lexeme.name n ∈ _))
    have spells := lexed.spells t member
    rw [isName] at spells
    rw [← spells.name_source.1]
    exact passes t member
  · intro passes t member
    have spells := lexed.spells t member
    by_cases named : ∃ n, t.lexeme = .name n
    · obtain ⟨n, isName⟩ := named
      rw [isName] at spells
      rw [spells.name_source.1]
      obtain ⟨l, r, rfl⟩ := List.append_of_mem member
      have tidy := Expr.derives_tidy derived
      rw [List.map_append, List.map_cons, isName] at tidy
      rcases tidy.before_name with dot | known
      · refine passes n ?_
        obtain ⟨init, last⟩ := List.getLast?_eq_some_iff.1 dot
        refine ⟨init, r.map Token.lexeme, ?_⟩
        rw [List.map_append, List.map_cons, isName, last]
        simp
      · exact (Rule.first?_denylist.1 (passes_known known)).2
    · exact (Rule.first?_denylist.1
        (passes_unnamed spells (code t member) (not_exists.1 named))).2

/-- Between brackets stands an integer where no string is. -/
theorem Scan.allowedKeys_unquoted {n : Int} (positive : 0 < n) (lexed : Lexed 0 s ts)
    (code : ∀ t ∈ ts, ∀ data, t.lexeme ≠ .text data)
    (beside : (ts.map Token.lexeme).IsChain Expr.Beside) :
    AllowedKeys (.count n) ts ↔ ShortIndexes n ts := by
  refine ⟨shortIndexes_of_allowed positive lexed.spells, ?_⟩
  intro short opening key inside isOpen
  have member : key ∈ ts := inside.subset (by simp)
  have spells := lexed.spells key member
  have next := beside.infix (inside.map Token.lexeme)
  rw [List.map_cons, List.map_singleton, List.isChain_cons_cons, isOpen] at next
  obtain ⟨_, known⟩ := Expr.key_of_beside next.1
  cases shape : key.lexeme with
  | integer k =>
    have few := short opening key inside isOpen k shape
    rw [shape] at spells
    cases spells with
    | integer digits => exact .inl ((isIndex_count positive).2 ⟨digits.1, digits.2, few⟩)
  | text data => exact absurd shape (code key member data)
  | decimal | punct | name => rw [shape] at known; cases known

namespace Gate

variable {config : Config} {e : Expr}

/-- Nothing is against a condition without strings that the grammar reads: it is not too long, no
keyword of the denylist is found in the name of a property or a method, no integer index has too
many digits, and no bracket opens after a parenthesis. -/
structure Unobstructed (config : Config) (t : Text) (ts : List Token) : Prop where
  length : (t.length : Int) ≤ config.maxLength.value
  names : ∀ n, [.punct .dot, .name n] <:+: ts.map Token.lexeme → Rule.first? wordRules n = none
  indexes : Scan.ShortIndexes config.maxIndexDigits.value ts
  bases : ¬[.punct .closeParen, .punct .openBracket] <:+: ts.map Token.lexeme

/-- The scans of raw text do not over-reject. In a condition without strings that the grammar reads
under a configuration no rule about marks applies, and the scans for parentheses, methods and names
pass. Unless it is nested more deeply than the stack holds, where reading breaks off, it is valid
exactly if nothing else is against it. -/
theorem unquoted_not_over_rejected (counts : CountsDigits config) (trimmed : Text.trim t = t)
    (unquoted : ∀ c ∈ t, Quote.ofChar? c = none)
    (read : Expr.read ⟨config.methods, config.maxDepth⟩ t = .ok e) :
    (∀ rule ∈ symbolRules, rule.applies t = false) ∧ checkParentheses t = .ok () ∧
      checkMethods config t = .ok () ∧ checkIdentifiers t = .ok () ∧
      ∃ ts, Token.lex t = .ok ts ∧ (Expr.nesting (ts.map Token.lexeme) ≤ config.stackLevels →
        (validate config (.text t) = .ok .valid ↔ Unobstructed config t ts)) := by
  obtain ⟨ts, lexed, parsed⟩ := bind_eq_ok.1 read
  obtain ⟨d, low, derived⟩ := Expr.derives_of_parse parsed
  have laid := Token.lexed_of_lex lexed
  have code := laid.code_of_unquoted unquoted
  have beside := (Expr.joined_of_derives derived).beside
  have symbols : Rule.first? symbolRules t = none := by
    refine (laid.passes_iff symbolRules_regular beside).2 fun t member => ?_
    exact passes_symbols (laid.spells t member) (code t member)
  have balance := Scan.parenthesesBalance_derived laid code derived
  obtain ⟨methods, identifiers⟩ := scans_of_read read
  refine ⟨Rule.first?_eq_none.1 symbols, checkParentheses_eq_ok.2 balance,
    checkMethods_eq_ok.2 methods, checkIdentifiers_eq_ok.2 identifiers, ts, lexed, fun held => ?_⟩
  -- The grammar reads within the stack too, and the steps left over are the four conditions.
  have read' : Expr.read (allowance config) t = .ok e := by
    rw [Expr.nesting_of_derives derived] at held
    have positive := config.maxDepth_pos
    have within : d ≤ config.maxDepth.value.toNat := low
    have low' := (le_allowance_depth config d).2 ⟨by omega, held⟩
    exact bind_eq_ok.2 ⟨ts, lexed, Expr.parse_of_derives (Expr.short_of_parse parsed) low' derived⟩
  obtain ⟨n, isCount, small⟩ := counts
  have positive := config.maxIndexDigits_pos
  have brackets : Scan.bracketFault? config.maxIndexDigits t = none ↔
      Scan.ShortIndexes config.maxIndexDigits.value ts ∧
        ¬[.punct .closeParen, .punct .openBracket] <:+: ts.map Token.lexeme := by
    rw [isCount] at positive ⊢
    have keys : Scan.AllowedKeys (.count n) ts ↔ Scan.ShortIndexes n ts :=
      Scan.allowedKeys_unquoted positive laid code beside
    exact (Scan.bracketFault?_derived laid derived).trans (and_congr_left' keys)
  have small : config.maxIndexDigits.value < Scan.repetitionBound := by rw [isCount]; exact small
  simp only [validate_eq_valid, compile_text_eq_ok, trimmed, compileTrimmed_eq_ok,
    Rule.first?_denylist, wordRules_iff laid code derived, brackets]
  constructor
  · rintro ⟨_, length, ⟨_, names⟩, _, ⟨_, indexes, bases⟩, _⟩
    exact ⟨length, names, indexes, bases⟩
  · rintro ⟨length, names, indexes, bases⟩
    exact ⟨e, length, ⟨symbols, names⟩, balance, ⟨small, indexes, bases⟩, methods, identifiers,
      read'⟩

/-- The grammar indexes a variable in parentheses; every other scan passes it, and it is invalid. -/
theorem unquoted_bracketed_group :
    (∃ e, Expr.read ⟨defaultMethods, .count 64⟩ ("(__v0)[1]>-1" : String).toList = .ok e) ∧
      (∀ rule ∈ symbolRules, rule.applies ("(__v0)[1]>-1" : String).toList = false) ∧
      checkIdentifiers ("(__v0)[1]>-1" : String).toList = .ok () ∧
      validate Config.default (.text ("(__v0)[1]>-1" : String).toList) ≠ .ok .valid := by
  have read : Expr.read ⟨defaultMethods, .count 64⟩ ("(__v0)[1]>-1" : String).toList =
      .ok (.binary .gt (.index 0 (.integer 1)) (.literal (.integer (-1)))) :=
    eq_ok_of_toOption (by decide +kernel)
  have known : Token.lex ("(__v0)[1]>-1" : String).toList = .ok [
      ⟨.punct .openParen, ['('], 0⟩, ⟨.name ("__v0" : String).toList, ("__v0" : String).toList, 1⟩,
      ⟨.punct .closeParen, [')'], 5⟩, ⟨.punct .openBracket, ['['], 6⟩, ⟨.integer 1, ['1'], 7⟩,
      ⟨.punct .closeBracket, [']'], 8⟩, ⟨.punct .gt, ['>'], 9⟩, ⟨.punct .minus, ['-'], 10⟩,
      ⟨.integer 1, ['1'], 11⟩] := eq_ok_of_toOption (by decide +kernel)
  have counts : CountsDigits Config.default := ⟨4, rfl, by decide⟩
  have trimmed : Text.trim ("(__v0)[1]>-1" : String).toList = ("(__v0)[1]>-1" : String).toList := by
    decide +kernel
  have unquoted : ("(__v0)[1]>-1" : String).toList.all (fun c => (Quote.ofChar? c).isNone) = true :=
    by decide
  obtain ⟨symbols, _, _, identifiers, ts, lexed, decided⟩ :=
    unquoted_not_over_rejected counts trimmed (by simpa using unquoted) read
  cases known.symm.trans lexed
  refine ⟨⟨_, read⟩, symbols, identifiers, fun valid => ?_⟩
  exact ((decided (by decide)).1 valid).bases (by decide)

end Gate
end BranchGate
