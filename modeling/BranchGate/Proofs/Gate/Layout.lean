import BranchGate.Proofs.Gate.Limits
import BranchGate.Proofs.Rule.Tokens
import BranchGate.Proofs.Scan.Bases
import BranchGate.Proofs.Scan.Parentheses
import BranchGate.Proofs.Token.Completeness

/-! Layout between the tokens of a condition. Each step of the gate comes down to the texts of the
tokens, the length apart, so conditions with the same tokens are accepted alike. -/
namespace BranchGate

namespace Scan

/-- Whether the keys are allowed can be read off the texts of the tokens. -/
theorem allowedKeys_iff {limit : Limit} {ts : List Token}
    (spells : ∀ t ∈ ts, Token.Spells t.lexeme t.source) : AllowedKeys limit ts ↔
      ∀ source, [['['], source] <:+: ts.map Token.source → AllowedKey limit source := by
  constructor
  · intro allowed source written
    obtain ⟨opening, key, inside, opens, rfl⟩ := pair_of_infix_map written
    have spellsOpen := spells opening (inside.subset (by simp))
    rw [opens] at spellsOpen
    exact allowed opening key inside (spellsOpen.unique (.punct .openBracket))
  · intro allowed opening key inside isOpen
    have spellsOpen := spells opening (inside.subset (by simp))
    rw [isOpen] at spellsOpen
    have written := inside.map Token.source
    rw [List.map_cons, spellsOpen.punct_source] at written
    exact allowed key.source written

end Scan

namespace Gate

open Token (Lexed)

variable {config : Config} {s s' t t' : Text} {ts ts' : List Token} {e : Expr}

/-- Each step that passes a text passes every text with the same tokens. -/
theorem compileTrimmed_of_sources (accepted : compileTrimmed config s = .ok e)
    (lexed : Token.lex s = .ok ts) (lexed' : Token.lex s' = .ok ts')
    (same : ts.map Token.source = ts'.map Token.source)
    (short : (s'.length : Int) ≤ config.maxLength.value) : compileTrimmed config s' = .ok e := by
  obtain ⟨_, d, known, readable, low, derived⟩ := derives_of_compileTrimmed accepted
  cases known.symm.trans lexed
  obtain ⟨_, denied, balance, ⟨small, brackets⟩, _⟩ := compileTrimmed_eq_ok.1 accepted
  have laid := Token.lexed_of_lex lexed
  have laid' := Token.lexed_of_lex lexed'
  have lexemes := Token.lexemes_of_sources laid.spells laid'.spells same
  have derived' : Expr.DerivesAll config.methods (ts'.map Token.lexeme) e d := lexemes ▸ derived
  have read : Expr.read (allowance config) s' = .ok e := by
    have readable' : ∀ l ∈ ts'.map Token.lexeme, l.isOverlong = false :=
      lexemes ▸ List.forall_mem_map.2 readable
    have parsed := Expr.parse_of_derives (List.forall_mem_map.1 readable') low derived'
    exact bind_eq_ok.2 ⟨ts', lexed', parsed⟩
  have denied' : Rule.first? denylist s' = none := by
    have beside := (Expr.joined_of_derives derived).beside
    have passes := (laid.passes_iff denylist_regular beside).1 denied
    have passes' : ∀ source ∈ ts'.map Token.source, Rule.first? denylist source = none :=
      same ▸ List.forall_mem_map.2 passes
    exact (laid'.passes_iff denylist_regular (lexemes ▸ beside)).2 (List.forall_mem_map.1 passes')
  have balance' : Scan.parenthesesBalance s' = true := by
    rw [Scan.parenthesesBalance_lexed laid, List.flatMap_def, same] at balance
    rwa [Scan.parenthesesBalance_lexed laid', List.flatMap_def]
  have brackets' : Scan.bracketFault? config.maxIndexDigits s' = none := by
    rw [Scan.bracketFault?_derived laid derived, Scan.allowedKeys_iff laid.spells, same,
      ← Scan.allowedKeys_iff laid'.spells, lexemes] at brackets
    exact (Scan.bracketFault?_derived laid' derived').2 brackets
  obtain ⟨methods, identifiers⟩ := scans_of_read read
  exact compileTrimmed_eq_ok.2
    ⟨short, denied', balance', ⟨small, brackets'⟩, methods, identifiers, read⟩

/-- Layout does not matter: two conditions with the same tokens, neither of them too long, are
accepted as the same tree or not at all. -/
theorem compile_ignores_layout (lexed : Token.lex (Text.trim t) = .ok ts)
    (lexed' : Token.lex (Text.trim t') = .ok ts')
    (same : ts.map Token.source = ts'.map Token.source)
    (short : ((Text.trim t).length : Int) ≤ config.maxLength.value)
    (short' : ((Text.trim t').length : Int) ≤ config.maxLength.value) :
    compile config (.text t) = .ok e ↔ compile config (.text t') = .ok e := by
  rw [compile_text_eq_ok, compile_text_eq_ok]
  exact ⟨fun accepted => compileTrimmed_of_sources accepted lexed lexed' same short',
    fun accepted => compileTrimmed_of_sources accepted lexed' lexed same.symm short⟩

/-- A condition without layout, and the same one on two lines. -/
theorem compile_broken_line :
    ∃ e, compile Config.default (.text ("__v0[1]>-2" : String).toList) = .ok e ∧
      compile Config.default (.text (" __v0 [\t1 ]\r\n> - 2" : String).toList) = .ok e := by
  have accepted : compile Config.default (.text ("__v0[1]>-2" : String).toList) =
      .ok (.binary .gt (.index 0 (.integer 1)) (.literal (.integer (-2)))) :=
    eq_ok_of_toOption (by decide +kernel)
  have lexed : Token.lex (Text.trim ("__v0[1]>-2" : String).toList) = .ok [
      ⟨.name ("__v0" : String).toList, ("__v0" : String).toList, 0⟩, ⟨.punct .openBracket, ['['], 4⟩,
      ⟨.integer 1, ['1'], 5⟩, ⟨.punct .closeBracket, [']'], 6⟩, ⟨.punct .gt, ['>'], 7⟩,
      ⟨.punct .minus, ['-'], 8⟩, ⟨.integer 2, ['2'], 9⟩] := eq_ok_of_toOption (by decide +kernel)
  have lexed' : Token.lex (Text.trim (" __v0 [\t1 ]\r\n> - 2" : String).toList) = .ok [
      ⟨.name ("__v0" : String).toList, ("__v0" : String).toList, 0⟩, ⟨.punct .openBracket, ['['], 5⟩,
      ⟨.integer 1, ['1'], 7⟩, ⟨.punct .closeBracket, [']'], 9⟩, ⟨.punct .gt, ['>'], 12⟩,
      ⟨.punct .minus, ['-'], 14⟩, ⟨.integer 2, ['2'], 16⟩] := eq_ok_of_toOption (by decide +kernel)
  exact ⟨_, accepted, (compile_ignores_layout lexed lexed' rfl (by decide) (by decide)).1 accepted⟩

end Gate
end BranchGate
