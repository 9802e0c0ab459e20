import BranchGate.Proofs.Expr.InStep
import BranchGate.Proofs.Mask.Blanked
import BranchGate.Scan.Words

/-! Quoted data is inert. Texts of one mask have their tokens in the same places and of the same
shapes, so they fail for the same cause or denote trees of one shape, and no scan of code tells
them apart. -/
namespace BranchGate

namespace Token

theorem blankLexeme_shape (source : Text) (l : Lexeme) : (blankLexeme source l).shape = l.shape := by
  cases l <;> rfl

theorem alike_of_blanked {t t' : Token} (same : t.blanked = t'.blanked) : Alike t t' where
  pos := by
    have pos : t.blanked.pos = t'.blanked.pos := congrArg Token.pos same
    exact pos
  shape := by
    have shape : (blankLexeme t.source t.lexeme).shape = (blankLexeme t'.source t'.lexeme).shape :=
      congrArg (fun u => u.lexeme.shape) same
    rwa [blankLexeme_shape, blankLexeme_shape] at shape

/-- Where tokens stand, and their shapes, is a matter of the mask alone. -/
theorem Lexed.alike {pos : Nat} {s s' : Text} {ts ts' : List Token} (lexed : Lexed pos s ts)
    (lexed' : Lexed pos s' ts') (masked : mask s = mask s') : List.Forall₂ Alike ts ts' := by
  have blank : Lexed pos (mask s) (ts'.map Token.blanked) := masked ▸ lexed'.blanked
  have same : ts.map Token.blanked = ts'.map Token.blanked := lexed.blanked.unique blank
  rw [← List.forall₂_eq_eq_eq, List.forall₂_map_left_iff, List.forall₂_map_right_iff] at same
  exact same.imp fun _ _ => alike_of_blanked

end Token

/-- Two runs that fail for one cause or answer with trees of one shape. -/
def Expr.SameOutcome (x y : Except ReadError Expr) : Prop :=
  (∃ cause, x = .error cause ∧ y = .error cause) ∨
    ∃ e e', x = .ok e ∧ y = .ok e' ∧ e.shape = e'.shape

theorem Expr.parse_sameOutcome (allowed : Expr.Allowance) {ts ts' : List Token}
    (alike : List.Forall₂ Token.Alike ts ts') :
    Expr.SameOutcome (Expr.parse allowed ts) (Expr.parse allowed ts') := by
  obtain ⟨fails, answers⟩ := Expr.parse_inStep allowed alike
  cases first : Expr.parse allowed ts with
  | error cause => exact .inl ⟨cause, rfl, fails cause first⟩
  | ok e =>
    obtain ⟨⟨e', second, shape⟩, _⟩ := answers e first
    exact .inr ⟨e, e', rfl, second, shape⟩

/-- Texts that differ inside their strings only are scanned alike and denote trees that differ in
text literals and text keys only, or fail for the same cause. -/
theorem Gate.quoted_data_inert {t t' : Text} {ts ts' : List Token} (masked : mask t = mask t')
    (lexed : Token.lex t = .ok ts) (lexed' : Token.lex t' = .ok ts') :
    (∀ methods, Scan.foreignMethod? methods t = Scan.foreignMethod? methods t') ∧
      Scan.strayIdentifier? t = Scan.strayIdentifier? t' ∧
      ∀ allowed, Expr.SameOutcome (Expr.read allowed t) (Expr.read allowed t') := by
  refine ⟨fun methods => ?_, ?_, fun allowed => ?_⟩
  · rw [Scan.foreignMethod?, masked, Scan.foreignMethod?]
  · rw [Scan.strayIdentifier?, masked, Scan.strayIdentifier?]
  · have alike := (Token.lexed_of_lex lexed).alike (Token.lexed_of_lex lexed') masked
    have read : Expr.read allowed t = Expr.parse allowed ts := by rw [Expr.read, lexed]; rfl
    have read' : Expr.read allowed t' = Expr.parse allowed ts' := by rw [Expr.read, lexed']; rfl
    rw [read, read']
    exact Expr.parse_sameOutcome allowed alike

/-- A key with brackets, quotes and a call in it, against a plain one. -/
theorem Gate.quoted_key_inert :
    mask ("__v0['a[\"].b(\\'0'] > 1" : String).toList =
        mask ("__v0['some words'] > 1" : String).toList ∧
      Expr.SameOutcome
        (Expr.read ⟨defaultMethods, .count 1⟩ ("__v0['a[\"].b(\\'0'] > 1" : String).toList)
        (Expr.read ⟨defaultMethods, .count 1⟩ ("__v0['some words'] > 1" : String).toList) := by
  have masked : mask ("__v0['a[\"].b(\\'0'] > 1" : String).toList =
      mask ("__v0['some words'] > 1" : String).toList := by decide +kernel
  have lexed : Token.lex ("__v0['a[\"].b(\\'0'] > 1" : String).toList = .ok [
      ⟨.name ("__v0" : String).toList, ("__v0" : String).toList, 0⟩, ⟨.punct .openBracket, ['['], 4⟩,
      ⟨.text ("a[\"].b('0" : String).toList, ("'a[\"].b(\\'0'" : String).toList, 5⟩,
      ⟨.punct .closeBracket, [']'], 17⟩, ⟨.punct .gt, ['>'], 19⟩, ⟨.integer 1, ['1'], 21⟩] :=
    eq_ok_of_toOption (by decide +kernel)
  have lexed' : Token.lex ("__v0['some words'] > 1" : String).toList = .ok [
      ⟨.name ("__v0" : String).toList, ("__v0" : String).toList, 0⟩, ⟨.punct .openBracket, ['['], 4⟩,
      ⟨.text ("some words" : String).toList, ("'some words'" : String).toList, 5⟩,
      ⟨.punct .closeBracket, [']'], 17⟩, ⟨.punct .gt, ['>'], 19⟩, ⟨.integer 1, ['1'], 21⟩] :=
    eq_ok_of_toOption (by decide +kernel)
  exact ⟨masked, (quoted_data_inert masked lexed lexed').2.2 _⟩

end BranchGate
