import BranchGate.Expr.Nesting
import BranchGate.Proofs.Expr.Completeness

/-! The nesting that a derivation has is the nesting counted along its lexemes, so a text has one. -/
namespace BranchGate.Expr

variable {methods : List Text} {lexs : List Lexeme} {e : Expr} {peak level : Nat}
  {bases : List Nat}

theorem isOperator_eq_true {l : Lexeme} :
    isOperator l = true ↔ ∃ opLevel op, OpLevel.operator? opLevel l = some op := by
  simp only [isOperator, List.any_eq_true, Option.isSome_iff_exists]
  constructor
  · rintro ⟨opLevel, _, op, known⟩
    exact ⟨opLevel, op, known⟩
  · rintro ⟨opLevel, op, known⟩
    exact ⟨opLevel, by cases opLevel <;> decide, op, known⟩

theorem nestingFrom_plain {l : Lexeme} (plain : isOperator l = false)
    (mark : ∀ p, l = .punct p → p ≠ .openParen ∧ p ≠ .closeParen ∧ p ≠ .not) (rest : List Lexeme) :
    nestingFrom peak level bases (l :: rest) = nestingFrom peak level bases rest := by
  rw [nestingFrom]
  · simp [plain]
  · rintro tail rfl
    exact absurd rfl (mark _ rfl).1
  · rintro rfl
    exact absurd rfl (mark _ rfl).1
  · rintro rfl
    exact absurd rfl (mark _ rfl).2.1
  · rintro rfl
    exact absurd rfl (mark _ rfl).2.2

theorem nestingFrom_operator {opLevel : OpLevel} {sign : Lexeme} {op : BinOp}
    (known : opLevel.operator? sign = some op) (rest : List Lexeme) :
    nestingFrom peak level bases (sign :: rest) = nestingFrom peak (bases.headD 0) bases rest := by
  have operator : isOperator sign = true := isOperator_eq_true.2 ⟨opLevel, op, known⟩
  have other (p : Punct) (plain : isOperator (.punct p) = false) : sign ≠ .punct p := by
    rintro rfl
    rw [plain] at operator
    cases operator
  rw [nestingFrom, operator]
  · rfl
  · exact fun _ same _ => other .openParen rfl same
  · exact other .openParen rfl
  · exact other .closeParen rfl
  · exact other .not rfl

theorem nestingFrom_open {l : Lexeme} (other : l ≠ .punct .closeParen) (rest : List Lexeme) :
    nestingFrom peak level bases (.punct .openParen :: l :: rest) =
      nestingFrom (max peak (level + 1)) (level + 1) ((level + 1) :: bases) (l :: rest) := by
  rw [nestingFrom]
  rintro tail same
  exact other (List.cons.inj same).1

/-- Levels of operators are counted from the start of the group or argument they stand in. -/
def Form.StartsAt (level : Nat) (bases : List Nat) : Form → Prop
  | .operators _ => bases.headD 0 = level
  | _ => True

/-- After a part that a suffix may follow, no more is open than before it. -/
def Form.EndsAt (level level' : Nat) : Form → Prop
  | .suffixed | .primary => level = level'
  | _ => True

/-- A part raises the peak by its nesting and closes what it opens. -/
def Scanned (form : Form) (lexs : List Lexeme) (d : Nat) : Prop :=
  ∀ peak level bases, level ≤ peak → form.StartsAt level bases → ∃ level',
    form.EndsAt level level' ∧ ∀ rest, nestingFrom peak level bases (lexs ++ rest) =
      nestingFrom (max peak (level + d)) level' bases rest

/-- A part in parentheses, whatever they are there for. -/
theorem Scanned.enclosed {d : Nat} (scanned : Scanned (.operators OpLevel.all) lexs d)
    (derived : DerivesAll methods lexs e d) (rest : List Lexeme) :
    nestingFrom peak level bases (.punct .openParen :: (lexs ++ .punct .closeParen :: rest)) =
      nestingFrom (max peak (level + (d + 1))) level bases rest := by
  obtain ⟨_, _, scan⟩ := scanned (max peak (level + 1)) (level + 1) ((level + 1) :: bases)
    (Nat.le_max_right peak (level + 1)) rfl
  obtain ⟨l, tail, rfl, other, _⟩ := derives_head derived
  rw [List.cons_append, nestingFrom_open other, ← List.cons_append, scan, nestingFrom]
  congr 1
  omega

theorem scanned_of_derives {form : Form} {d : Nat} (derived : Derives methods form lexs e d) :
    Scanned form lexs d := by
  induction derived with
  | operand _ ih =>
    intro peak level bases low _
    obtain ⟨level', _, scan⟩ := ih peak level bases low trivial
    exact ⟨level', trivial, scan⟩
  | tighter _ ih =>
    intro peak level bases low starts
    exact ih peak level bases low starts
  | @binary _ _ _ _ _ _ d₁ d₂ _ _ _ known _ ihLeft ihRight =>
    intro peak level bases low starts
    obtain ⟨_, _, left⟩ := ihLeft peak level bases low starts
    have low' : level ≤ max peak (level + d₁) := Nat.le_trans low (Nat.le_max_left ..)
    obtain ⟨level', _, right⟩ := ihRight _ level bases low' starts
    refine ⟨level', trivial, fun rest => ?_⟩
    have starts : bases.headD 0 = level := starts
    rw [List.append_assoc, left, List.cons_append, nestingFrom_operator known, starts, right]
    congr 1
    omega
  | not _ ih =>
    intro peak level bases low _
    obtain ⟨level', _, scan⟩ := ih _ (level + 1) bases (Nat.le_max_right peak (level + 1)) trivial
    refine ⟨level', trivial, fun rest => ?_⟩
    rw [List.cons_append, nestingFrom, scan]
    congr 1
    omega
  | negativeInteger n | negativeDecimal x =>
    intro peak level bases low _
    refine ⟨level, trivial, fun rest => ?_⟩
    rw [Nat.add_zero, Nat.max_eq_left low]
    rfl
  | ofSuffixed _ ih =>
    intro peak level bases low _
    obtain ⟨level', _, scan⟩ := ih peak level bases low trivial
    exact ⟨level', trivial, scan⟩
  | ofPrimary _ ih =>
    intro peak level bases low _
    exact ih peak level bases low trivial
  | member _ _ ih =>
    intro peak level bases low _
    obtain ⟨_, rfl, scan⟩ := ih peak level bases low trivial
    refine ⟨_, rfl, fun rest => ?_⟩
    rw [List.append_assoc, scan]
    rfl
  | call _ _ _ ih =>
    intro peak level bases low _
    obtain ⟨_, rfl, scan⟩ := ih peak level bases low trivial
    refine ⟨_, rfl, fun rest => ?_⟩
    rw [List.append_assoc, scan]
    rfl
  | @callWith _ _ d _ inner _ d' _ _ _ argument ih ihArgument =>
    intro peak level bases low _
    obtain ⟨_, rfl, scan⟩ := ih peak level bases low trivial
    refine ⟨_, rfl, fun rest => ?_⟩
    calc nestingFrom peak level bases _
      _ = nestingFrom (max peak (level + d)) level bases
          (.punct .openParen :: (inner ++ .punct .closeParen :: rest)) := by
        rw [List.append_assoc, scan, List.cons_append, nestingFrom_plain rfl (by simp),
          List.cons_append, nestingFrom_plain rfl (by simp)]
        simp
      _ = nestingFrom (max (max peak (level + d)) (level + (d' + 1))) level bases rest :=
        ihArgument.enclosed argument rest
      _ = _ := by congr 1; omega
  | @index _ _ _ sign _ _ known ih =>
    intro peak level bases low _
    obtain ⟨_, rfl, scan⟩ := ih peak level bases low trivial
    refine ⟨_, rfl, fun rest => ?_⟩
    have plain : isOperator sign = false ∧ ∀ p, sign ≠ .punct p := by
      cases sign <;> cases known <;> exact ⟨rfl, nofun⟩
    rw [List.append_assoc, scan, List.cons_append, nestingFrom_plain rfl (by simp),
      List.cons_append, nestingFrom_plain plain.1 (fun p same => absurd same (plain.2 p))]
    rfl
  | integer n | decimal x | text data | reserved | «variable» =>
    intro peak level bases low _
    refine ⟨level, rfl, fun rest => ?_⟩
    rw [Nat.add_zero, Nat.max_eq_left low]
    rfl
  | group derived ih =>
    intro peak level bases _ _
    refine ⟨level, rfl, fun rest => ?_⟩
    rw [List.cons_append, List.append_assoc]
    exact ih.enclosed derived rest

theorem nesting_of_derives {d : Nat} (derived : DerivesAll methods lexs e d) :
    nesting lexs = d := by
  obtain ⟨_, _, scan⟩ := scanned_of_derives derived 0 0 [] (Nat.le_refl 0) rfl
  have scan := scan []
  rw [List.append_nil] at scan
  rw [nesting, scan, nestingFrom]
  omega

/-- A negation, an argument of its operand and a negation in that; the group stands outside. -/
example : nesting [.punct .not, .name ['a'], .punct .dot, .name ['b'], .punct .openParen,
    .punct .not, .name ['c'], .punct .closeParen, .punct .or, .punct .openParen, .name ['d'],
    .punct .closeParen] = 3 := by decide

end BranchGate.Expr
