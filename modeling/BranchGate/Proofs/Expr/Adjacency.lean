import BranchGate.Proofs.Expr.Completeness
import Mathlib.Data.List.Chain

/-! Which lexemes may stand next to each other in a derived list. A name that follows no dot is a
reserved literal or a variable, and a name before an opening parenthesis is a granted method. -/
namespace BranchGate.Expr

/-- Names that may stand by themselves. -/
def IsKnown (n : Text) : Prop := (Literal.ofName? n).isSome = true ∨ isVariable n = true

/-- Two neighbours, as far as names are concerned. -/
def Adjacent (methods : List Text) (first second : Lexeme) : Prop :=
  (∀ n, second = .name n → first = .punct .dot ∨ IsKnown n) ∧
    ∀ n, first = .name n → second = .punct .openParen → n ∈ methods

variable {methods : List Text}

theorem adjacent_of_unnamed {first second : Lexeme} (left : ∀ n, first ≠ .name n)
    (right : ∀ n, second = .name n → IsKnown n) : Adjacent methods first second :=
  ⟨fun n isName => .inr (right n isName), fun n isName => absurd isName (left n)⟩

theorem adjacent_punct {first : Lexeme} {p : Punct} (other : p ≠ .openParen) :
    Adjacent methods first (.punct p) := by
  refine ⟨nofun, ?_⟩
  rintro n _ ⟨⟩
  exact absurd rfl other

/-- Adjacent throughout, and beginning with no name that needs a dot before it. -/
structure Tidy (methods : List Text) (lexs : List Lexeme) : Prop where
  adjacent : lexs.IsChain (Adjacent methods)
  head : ∀ n, lexs.head? = some (.name n) → IsKnown n

theorem Tidy.after {lexs : List Lexeme} {first : Lexeme} (tidy : Tidy methods lexs)
    (unnamed : ∀ n, first ≠ .name n) : (first :: lexs).IsChain (Adjacent methods) := by
  refine List.isChain_cons.2 ⟨fun second head => ?_, tidy.adjacent⟩
  refine adjacent_of_unnamed unnamed fun n isName => ?_
  exact tidy.head n (isName ▸ head)

theorem Tidy.append {a b : List Lexeme} {p : Punct} (left : Tidy methods a) (filled : a ≠ [])
    (other : p ≠ .openParen) (right : (.punct p :: b).IsChain (Adjacent methods)) :
    Tidy methods (a ++ .punct p :: b) := by
  constructor
  · refine List.isChain_append.2 ⟨left.adjacent, right, ?_⟩
    rintro first _ _ ⟨⟩
    exact adjacent_punct other
  · intro n head
    rw [List.head?_append_of_ne_nil a filled] at head
    exact left.head n head

theorem derives_ne_nil {form : Form} {lexs : List Lexeme} {e : Expr} {d : Nat}
    (derived : Derives methods form lexs e d) : lexs ≠ [] := by
  obtain ⟨first, tail, rfl, _⟩ := derives_head derived
  exact List.cons_ne_nil first tail

theorem derives_tidy {form : Form} {lexs : List Lexeme} {e : Expr} {d : Nat}
    (derived : Derives methods form lexs e d) : Tidy methods lexs := by
  induction derived with
  | operand _ ih | tighter _ ih | ofSuffixed _ ih | ofPrimary _ ih => exact ih
  | binary left known _ ihLeft ihRight =>
    obtain ⟨p, rfl, _, _, other, _⟩ := operator?_punct known
    exact ihLeft.append (derives_ne_nil left) other (ihRight.after nofun)
  | not _ ih => exact ⟨ih.after nofun, nofun⟩
  | negativeInteger n | negativeDecimal n =>
    exact ⟨.cons_cons (adjacent_of_unnamed nofun nofun) (.singleton _), nofun⟩
  | member target _ ih =>
    refine ih.append (derives_ne_nil target) (by decide) (.cons_cons ?_ (.singleton _))
    exact ⟨fun _ _ => .inl rfl, nofun⟩
  | call target _ granted ih =>
    refine ih.append (derives_ne_nil target) (by decide) (.cons_cons ?_ (.cons_cons ?_
      (.cons_cons (adjacent_punct (by decide)) (.singleton _))))
    · exact ⟨fun _ _ => .inl rfl, nofun⟩
    · refine ⟨nofun, ?_⟩
      rintro n ⟨⟩ _
      exact granted
  | callWith target _ granted inner ih ihInner =>
    have closed := ihInner.append (derives_ne_nil inner) (p := .closeParen) (by decide)
      (.singleton _)
    refine ih.append (derives_ne_nil target) (by decide) (.cons_cons ?_ (.cons_cons ?_
      (closed.after nofun)))
    · exact ⟨fun _ _ => .inl rfl, nofun⟩
    · refine ⟨nofun, ?_⟩
      rintro n ⟨⟩ _
      exact granted
  | index target known ih =>
    refine ih.append (derives_ne_nil target) (by decide) (.cons_cons ?_
      (.cons_cons (adjacent_punct (by decide)) (.singleton _)))
    refine adjacent_of_unnamed nofun ?_
    rintro n rfl
    cases known
  | integer | decimal | text => exact ⟨.singleton _, nofun⟩
  | reserved known =>
    refine ⟨.singleton _, ?_⟩
    rintro n ⟨⟩
    exact .inl (by rw [known]; rfl)
  | «variable» known =>
    refine ⟨.singleton _, ?_⟩
    rintro n ⟨⟩
    exact .inr (by rw [isVariable, known]; rfl)
  | group inner ih =>
    have closed := ih.append (derives_ne_nil inner) (p := .closeParen) (by decide) (.singleton _)
    exact ⟨closed.after nofun, nofun⟩

end BranchGate.Expr
