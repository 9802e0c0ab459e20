import BranchGate.Proofs.Expr.Adjacency
import BranchGate.Proofs.Expr.Nesting

/-! The lexemes that the grammar puts next to each other. Of two neighbours one is a mark, an
operator between operands comes after the end of one, and a bracket opens after a variable or after
a group. -/
namespace BranchGate.Expr

/-- Lexemes that an operand may begin with. -/
def Opens : Lexeme → Prop
  | .punct p => p = .openParen ∨ p = .not ∨ p = .minus
  | .name n => IsKnown n
  | .integer _ | .decimal _ | .text _ => True

/-- Lexemes that an operand may end with. -/
def Closes : Lexeme → Prop
  | .punct p => p = .closeParen ∨ p = .closeBracket
  | .integer _ | .decimal _ | .text _ | .name _ => True

/-- Lexemes that what may be indexed ends with: a variable, or a group around one. -/
def IsBase (l : Lexeme) : Prop :=
  l = .punct .closeParen ∨ ∃ n, l = .name n ∧ isVariable n = true

/-- A lexeme and the one after it. -/
inductive Beside : Lexeme → Lexeme → Prop
  | after {l p} : Closes l → isOperator (.punct p) = true ∨ p = .closeParen ∨ p = .dot →
      Beside l (.punct p)
  | before {p l} : isOperator (.punct p) = true ∨ p = .openParen ∨ p = .not → Opens l →
      Beside (.punct p) l
  | sign {l} : l.kind = .number → Beside (.punct .minus) l
  | property {n} : isProperty n = true → Beside (.punct .dot) (.name n)
  | call {n} : Beside (.name n) (.punct .openParen)
  | noArgument : Beside (.punct .openParen) (.punct .closeParen)
  | indexed {l} : IsBase l → Beside l (.punct .openBracket)
  | key {l k} : key? l = some k → Beside (.punct .openBracket) l
  | keyEnd {l k} : key? l = some k → Beside l (.punct .closeBracket)

/-- Lexemes that may stand next to each other, from the beginning of an operand to the end of
one. -/
structure Joined (lexs : List Lexeme) : Prop where
  beside : lexs.IsChain Beside
  opens : ∀ l ∈ lexs.head?, Opens l
  closes : ∀ l ∈ lexs.getLast?, Closes l

/-- A variable is two underscores, a v and digits. -/
theorem isVariable_cases {n : Text} (isVar : isVariable n = true) :
    ∃ ds, n = '_' :: '_' :: 'v' :: ds ∧ Token.IsDigits ds := by
  unfold isVariable variableDigits? at isVar
  split at isVar
  next ds =>
    split at isVar
    next digits =>
      simp only [Bool.and_eq_true, Bool.not_eq_true', List.isEmpty_eq_false_iff,
        List.all_eq_true] at digits
      exact ⟨ds, rfl, digits⟩
    next => cases isVar
  next => cases isVar

variable {l : Lexeme} {n : Text}

/-- Before a variable there is a mark, and no dot. -/
theorem beside_variable (beside : Beside l (.name n)) (isVar : isVariable n = true) :
    ∃ p, l = .punct p ∧ p ≠ .dot := by
  cases beside with
  | @before p _ leads _ =>
    refine ⟨p, rfl, ?_⟩
    rintro rfl
    exact absurd leads (by decide)
  | sign number => cases number
  | property property =>
    obtain ⟨ds, rfl, _⟩ := isVariable_cases isVar
    cases property
  | key known => cases known

theorem beside_bracket (beside : Beside l (.punct .openBracket)) : IsBase l := by
  cases beside with
  | after _ follows => exact absurd follows (by decide)
  | before _ opens => exact absurd opens (by simp [Opens])
  | sign number => cases number
  | indexed base => exact base
  | key known => cases known

theorem key_of_beside (beside : Beside (.punct .openBracket) l) : ∃ k, key? l = some k := by
  cases beside with
  | after closes _ => exact absurd closes (by simp [Closes])
  | before leads _ => exact absurd leads (by decide)
  | indexed base => exact absurd base (by simp [IsBase])
  | key known => exact ⟨_, known⟩
  | keyEnd known => cases known

variable {lexs rest : List Lexeme} {p : Punct}

theorem Joined.single {l : Lexeme} (opens : Opens l) (closes : Closes l) : Joined [l] where
  beside := .singleton l
  opens := by rintro _ ⟨⟩; exact opens
  closes := by rintro _ ⟨⟩; exact closes

/-- After an operator, an opening parenthesis or a negation an operand begins. -/
theorem Joined.led (joined : Joined lexs)
    (leads : isOperator (.punct p) = true ∨ p = .openParen ∨ p = .not) :
    (.punct p :: lexs).IsChain Beside :=
  List.isChain_cons.2 ⟨fun l head => .before leads (joined.opens l head), joined.beside⟩

theorem Joined.append (left : Joined lexs) (filled : lexs ≠ [])
    (seam : ∀ l ∈ lexs.getLast?, Beside l (.punct p)) (right : (.punct p :: rest).IsChain Beside)
    (closes : ∀ l ∈ (.punct p :: rest).getLast?, Closes l) : Joined (lexs ++ .punct p :: rest) where
  beside := by
    refine List.isChain_append.2 ⟨left.beside, right, ?_⟩
    rintro l last _ ⟨⟩
    exact seam l last
  opens := by
    rw [List.head?_append_of_ne_nil lexs filled]
    exact left.opens
  closes := by
    rw [List.getLast?_append_of_ne_nil lexs (List.cons_ne_nil (.punct p) rest)]
    exact closes

/-- A mark that goes on after an operand. -/
theorem Joined.seam (joined : Joined lexs)
    (follows : isOperator (.punct p) = true ∨ p = .closeParen ∨ p = .dot) :
    ∀ l ∈ lexs.getLast?, Beside l (.punct p) :=
  fun l last => .after (joined.closes l last) follows

theorem Joined.enclosed (joined : Joined lexs) (filled : lexs ≠ []) :
    (.punct .openParen :: (lexs ++ [.punct .closeParen])).IsChain Beside := by
  have closed : Joined (lexs ++ [.punct .closeParen]) := by
    refine joined.append filled (joined.seam (by simp)) (.singleton _) ?_
    rintro _ ⟨⟩
    exact .inl rfl
  exact closed.led (by simp)

variable {methods : List Text} {form : Form} {e : Expr} {d : Nat}

/-- What derives a variable ends as a variable or a group. -/
theorem base_of_derives {n : Nat} (derived : Derives methods form lexs (.variable n) d) :
    ∀ l ∈ lexs.getLast?, IsBase l := by
  generalize same : Expr.variable n = e at derived
  induction derived with
  | operand _ ih | tighter _ ih | ofSuffixed _ ih | ofPrimary _ ih => exact ih same
  | «variable» known =>
    rintro _ ⟨⟩
    exact .inr ⟨_, rfl, by rw [isVariable, known]; rfl⟩
  | group _ _ =>
    rw [← List.cons_append, List.getLast?_concat]
    rintro _ ⟨⟩
    exact .inl rfl
  | _ => cases same

theorem isOperator_of_operator? {level : OpLevel} {sign : Lexeme} {op : BinOp}
    (known : level.operator? sign = some op) : ∃ p, sign = .punct p ∧ isOperator (.punct p) = true := by
  obtain ⟨p, rfl, _⟩ := operator?_punct known
  exact ⟨p, rfl, isOperator_eq_true.2 ⟨level, op, known⟩⟩

theorem joined_of_derives (derived : Derives methods form lexs e d) : Joined lexs := by
  induction derived with
  | operand _ ih | tighter _ ih | ofSuffixed _ ih | ofPrimary _ ih => exact ih
  | binary left known right ihLeft ihRight =>
    obtain ⟨p, rfl, operator⟩ := isOperator_of_operator? known
    refine ihLeft.append (derives_ne_nil left) (ihLeft.seam (.inl operator))
      (ihRight.led (.inl operator)) ?_
    rw [List.getLast?_cons_of_ne_nil (derives_ne_nil right)]
    exact ihRight.closes
  | not operand ih =>
    refine ⟨ih.led (by simp), ?_, ?_⟩
    · rintro _ ⟨⟩
      exact .inr (.inl rfl)
    · rw [List.getLast?_cons_of_ne_nil (derives_ne_nil operand)]
      exact ih.closes
  | negativeInteger n | negativeDecimal n =>
    refine ⟨.cons_cons (.sign rfl) (.singleton _), ?_, ?_⟩
    · rintro _ ⟨⟩
      exact .inr (.inr rfl)
    · rintro _ ⟨⟩
      trivial
  | member target property ih =>
    refine ih.append (derives_ne_nil target) (ih.seam (by simp))
      (.cons_cons (.property property) (.singleton _)) ?_
    rintro _ ⟨⟩
    trivial
  | call target property _ ih =>
    refine ih.append (derives_ne_nil target) (ih.seam (by simp))
      (.cons_cons (.property property) (.cons_cons .call (.cons_cons .noArgument (.singleton _)))) ?_
    rintro _ ⟨⟩
    exact .inl rfl
  | @callWith _ _ _ name inner _ _ target property _ argument ih ihArgument =>
    refine ih.append (derives_ne_nil target) (ih.seam (by simp)) (.cons_cons (.property property)
      (.cons_cons .call (ihArgument.enclosed (derives_ne_nil argument)))) ?_
    rw [show Lexeme.punct .dot :: .name name :: .punct .openParen :: (inner ++ [.punct .closeParen]) =
      (.punct .dot :: .name name :: .punct .openParen :: inner) ++ [.punct .closeParen] from rfl,
      List.getLast?_concat]
    rintro _ ⟨⟩
    exact .inl rfl
  | index target known ih =>
    refine ih.append (derives_ne_nil target) ?_
      (.cons_cons (.key known) (.cons_cons (.keyEnd known) (.singleton _))) ?_
    · exact fun l last => .indexed (base_of_derives target l last)
    · rintro _ ⟨⟩
      exact .inr rfl
  | integer | decimal | text => exact .single trivial trivial
  | reserved known => exact .single (.inl (by rw [known]; rfl)) trivial
  | «variable» known => exact .single (.inr (by rw [isVariable, known]; rfl)) trivial
  | group inner ih =>
    refine ⟨ih.enclosed (derives_ne_nil inner), ?_, ?_⟩
    · rintro _ ⟨⟩
      exact .inl rfl
    · rw [← List.cons_append, List.getLast?_concat]
      rintro _ ⟨⟩
      exact .inl rfl

end BranchGate.Expr
