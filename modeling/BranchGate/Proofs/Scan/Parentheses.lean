import BranchGate.Proofs.Expr.Completeness
import BranchGate.Proofs.Token.Lexed
import BranchGate.Scan.Brackets

/-! The count of parentheses read off the tokens of a text. What the grammar derives opens as many
as it closes, so only strings can make the count fail. -/
namespace BranchGate

namespace Token

/-- Layout aside, the characters of a text are those of its tokens. -/
theorem Lexed.count {pos : Nat} {s : Text} {ts : List Token} {c : Char} (lexed : Lexed pos s ts)
    (ink : Text.isLayout c = false) : s.count c = (ts.flatMap source).count c := by
  induction lexed with
  | done => rfl
  | @layout _ d _ _ layout _ ih =>
    have other : d ≠ c := by
      rintro rfl
      cases layout.symm.trans ink
    rw [List.count_cons_of_ne other, ih]
  | token _ _ _ ih => rw [List.flatMap_cons, List.count_append, List.count_append, ih]

/-- Outside strings a character of this one mark is found in the mark only. -/
theorem Spells.count_mark {p : Punct} {c : Char} {l : Lexeme} {source : Text}
    (spells : Spells l source) (code : ∀ data, l ≠ .text data)
    (mark : ∀ q ∈ Punct.all, q.text.count c = [Lexeme.punct q].count (.punct p))
    (outside : Text.isNameChar c = false) (point : c ≠ '.') :
    source.count c = [l].count (.punct p) := by
  have unnamed {x : Text} (inner : ∀ d ∈ x, Text.isNameChar d = true) : x.count c = 0 := by
    refine List.count_eq_zero.2 fun inside => ?_
    cases (inner c inside).symm.trans outside
  have digits {x : Text} (digits : IsDigits x) : x.count c = 0 :=
    unnamed fun d inside => Text.isNameChar_of_isDigit (digits.2 d inside)
  cases spells with
  | integer whole => rw [digits whole]; rfl
  | decimal whole places =>
    rw [List.count_append, List.count_cons_of_ne point.symm, digits whole, digits places]
    rfl
  | text => exact absurd rfl (code _)
  | punct q => exact mark q (Punct.mem_all q)
  | name named => rw [unnamed fun d inside => Text.isNameChar_of_mem named inside]; rfl

theorem count_mark {p : Punct} {c : Char} {ts : List Token}
    (spells : ∀ t ∈ ts, Spells t.lexeme t.source) (code : ∀ t ∈ ts, ∀ data, t.lexeme ≠ .text data)
    (mark : ∀ q ∈ Punct.all, q.text.count c = [Lexeme.punct q].count (.punct p))
    (outside : Text.isNameChar c = false) (point : c ≠ '.') :
    (ts.flatMap source).count c = (ts.map lexeme).count (.punct p) := by
  induction ts with
  | nil => rfl
  | cons t ts ih =>
    rw [List.forall_mem_cons] at spells code
    rw [List.flatMap_cons, List.count_append, spells.1.count_mark code.1 mark outside point,
      ih spells.2 code.2, ← List.count_append]
    rfl

end Token

namespace Expr

theorem parentheses_of_derives {methods : List Text} {form : Form} {lexs : List Lexeme} {e : Expr}
    {d : Nat} (derived : Derives methods form lexs e d) :
    lexs.count (.punct .openParen) = lexs.count (.punct .closeParen) := by
  induction derived with
  | operand _ ih | tighter _ ih | ofSuffixed _ ih | ofPrimary _ ih => exact ih
  | binary _ known _ ihLeft ihRight =>
    obtain ⟨p, rfl, _, _, noOpen, noClose⟩ := operator?_punct known
    simp [List.count_append, ihLeft, ihRight, noOpen, noClose]
  | not _ ih => simpa using ih
  | negativeInteger | negativeDecimal | integer | decimal | text | reserved | «variable» => rfl
  | member _ _ ih | call _ _ _ ih => simp [List.count_append, ih]
  | callWith _ _ _ _ ih ihArgument => simp [List.count_append, ih, ihArgument]
  | index _ known ih =>
    simp [List.count_append, ih, ne_punct_of_key known]
  | group _ ih => simp [List.count_append, ih]

end Expr

namespace Scan

open Token (Lexed)

variable {pos : Nat} {s : Text} {ts : List Token}

/-- The layout has no part in the count. -/
theorem parenthesesBalance_lexed (lexed : Lexed pos s ts) :
    parenthesesBalance s = parenthesesBalance (ts.flatMap Token.source) := by
  rw [parenthesesBalance, parenthesesBalance, lexed.count (by decide), lexed.count (by decide)]

/-- Without strings, what the grammar derives has as many parentheses of each kind. -/
theorem parenthesesBalance_derived {methods : List Text} {form : Expr.Form} {e : Expr} {d : Nat}
    (lexed : Lexed pos s ts) (code : ∀ t ∈ ts, ∀ data, t.lexeme ≠ .text data)
    (derived : Expr.Derives methods form (ts.map Token.lexeme) e d) :
    parenthesesBalance s = true := by
  rw [parenthesesBalance_lexed lexed, parenthesesBalance, beq_iff_eq,
    Token.count_mark lexed.spells code (p := .openParen) (by decide) (by decide) (by decide),
    Token.count_mark lexed.spells code (p := .closeParen) (by decide) (by decide) (by decide),
    Expr.parentheses_of_derives derived]

end Scan
end BranchGate
