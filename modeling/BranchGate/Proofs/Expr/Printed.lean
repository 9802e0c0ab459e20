import BranchGate.Expr.WellFormed
import BranchGate.Proofs.Expr.InStep
import BranchGate.Proofs.Token.Completeness
import BranchGate.Proofs.Token.Layout

/-! Printed trees read back. What is printed for a tree has lexemes that derive the tree, in a form
that suits the place it is printed in, and nests no deeper than its parentheses and exclamation
marks say; and every tree that is read without decimals can be printed. -/
namespace BranchGate.Expr

open Token (Begun Clear Spelled begun_cons begun_name clear_cons clear_property)

/-- How many parentheses are opened in a text, and exclamation marks. -/
def openings (x : Text) : Nat := x.count '(' + x.count '!'

theorem openings_append (x y : Text) : openings (x ++ y) = openings x + openings y := by
  simp only [openings, List.count_append]
  omega

theorem openings_cons (c : Char) (x : Text) : openings (c :: x) = openings [c] + openings x :=
  openings_append [c] x

/-- The text writes the tree in a form, whatever clear text follows. -/
structure Writes (methods : List Text) (form : Form) (x : Text) (e : Expr) : Prop where
  begun : Begun x
  reads : ∃ lexs d, Derives methods form lexs e d ∧ d ≤ openings x ∧
    (∀ l ∈ lexs, l.isOverlong = false) ∧ Spelled x lexs

variable {methods : List Text} {form form' : Form} {x y : Text} {e l r : Expr}

theorem Writes.widen (writes : Writes methods form x e)
    (also : ∀ {lexs d}, Derives methods form lexs e d → Derives methods form' lexs e d) :
    Writes methods form' x e := by
  obtain ⟨begun, lexs, d, derived, rest⟩ := writes
  exact ⟨begun, lexs, d, also derived, rest⟩

section Leaves

theorem writes_token {lexeme : Lexeme} (begun : Begun x)
    (derived : Derives methods .primary [lexeme] e 0) (short : lexeme.isOverlong = false)
    (spelled : Spelled x [lexeme]) : Writes methods .primary x e :=
  ⟨begun, [lexeme], 0, derived, Nat.zero_le _, List.forall_mem_singleton.2 short, spelled⟩

theorem writes_integer {n : Nat} (readable : IsReadable n) :
    Writes methods .primary (Text.ofNat n) (.literal (.integer n)) :=
  writes_token (Token.isDigits_ofNat n).begun (.integer n) rfl (Token.spelled_integer readable)

theorem writes_text (t : Text) : Writes methods .primary t.singleQuoted (.literal (.text t)) :=
  writes_token (begun_cons (by decide)) (.text t) rfl (Token.spelled_text t)

theorem writes_reserved {name : Text} {v : Literal} (known : Literal.ofName? name = some v)
    (named : Text.isName name = true) (short : (Lexeme.name name).isOverlong = false) :
    Writes methods .primary name (.literal v) :=
  writes_token (begun_name named) (.reserved known) short (Token.spelled_name named)

theorem variableName_eq (n : Nat) : variableName n = '_' :: '_' :: 'v' :: Text.ofNat n := rfl

theorem variableDigits?_variableName (n : Nat) :
    variableDigits? (variableName n) = some (Text.ofNat n) := by
  obtain ⟨filled, digits⟩ := Token.isDigits_ofNat n
  rw [variableName_eq, variableDigits?, if_pos]
  simp only [Bool.and_eq_true, Bool.not_eq_true', List.isEmpty_eq_false_iff, List.all_eq_true]
  exact ⟨filled, digits⟩

theorem isName_variableName (n : Nat) : Text.isName (variableName n) = true := by
  have digits : ∀ d ∈ Text.ofNat n, Text.isNameChar d = true := fun d inside =>
    Text.isNameChar_of_isDigit ((Token.isDigits_ofNat n).2 d inside)
  rw [variableName_eq, Text.isName, Bool.and_eq_true, List.all_eq_true]
  exact ⟨by decide, List.forall_mem_cons.2 ⟨by decide, List.forall_mem_cons.2 ⟨by decide, digits⟩⟩⟩

theorem writes_variable {n : Nat} (readable : IsReadable n) :
    Writes methods .primary (variableName n) (.variable n) := by
  have known := variableDigits?_variableName n
  have derived : Derives methods .primary [.name (variableName n)]
      (.variable (Text.toNat (Text.ofNat n))) 0 := .variable known
  rw [Text.toNat_ofNat] at derived
  have bound : ¬digitLimit < (Text.ofNat n).length := Nat.not_lt.2 readable
  have short : (Lexeme.name (variableName n)).isOverlong = false := by
    simp [Lexeme.isOverlong, known, bound]
  have named := isName_variableName n
  exact writes_token (begun_name named) derived short (Token.spelled_name named)

theorem writes_negative {n : Nat} (readable : IsReadable n) :
    Writes methods .unary ('-' :: Text.ofNat n) (.literal (.integer (-(n : Int)))) where
  begun := begun_cons (by decide)
  reads := ⟨_, 0, .negativeInteger n, Nat.zero_le _, by simp [Lexeme.isOverlong],
    (Token.spelled_integer readable).mark .minus (Token.isDigits_ofNat n).begun⟩

end Leaves

section Parts

theorem clear_closeParen (rest : Text) : Clear (')' :: rest) :=
  clear_cons ⟨by decide, by decide⟩ (by decide)

theorem clear_openParen (rest : Text) : Clear ('(' :: rest) :=
  clear_cons ⟨by decide, by decide⟩ (by decide)

/-- A text in parentheses. -/
theorem spelled_enclosed {lexs : List Lexeme} (spelled : Spelled x lexs) (begun : Begun x) :
    Spelled ('(' :: (x ++ [')'])) (.punct .openParen :: (lexs ++ [.punct .closeParen])) :=
  (spelled.append (Token.spelled_mark .closeParen) clear_closeParen).mark .openParen
    (begun.append [')'])

theorem Writes.group (writes : Writes methods (.operators OpLevel.all) x e) :
    Writes methods .primary ('(' :: (x ++ [')'])) e where
  begun := begun_cons (by decide)
  reads := by
    obtain ⟨lexs, d, derived, low, short, spelled⟩ := writes.reads
    refine ⟨_, d + 1, .group derived, ?_, ?_, spelled_enclosed spelled writes.begun⟩
    · rw [openings_cons, openings_append]
      have one : openings ['('] = 1 := rfl
      omega
    · refine List.forall_mem_cons.2 ⟨rfl, List.forall_mem_append.2 ⟨short, ?_⟩⟩
      exact List.forall_mem_singleton.2 rfl

theorem Writes.not (writes : Writes methods .primary x e) :
    Writes methods .unary ('!' :: x) (.not e) where
  begun := begun_cons (by decide)
  reads := by
    obtain ⟨lexs, d, derived, low, short, spelled⟩ := writes.reads
    refine ⟨_, d + 1, .not (.ofSuffixed (.ofPrimary derived)), ?_,
      List.forall_mem_cons.2 ⟨rfl, short⟩, spelled.mark .not writes.begun⟩
    rw [openings_cons]
    have one : openings ['!'] = 1 := rfl
    omega

theorem derives_operators {lexs : List Lexeme} {d : Nat}
    (derived : Derives methods .primary lexs e d) (levels : List OpLevel) :
    Derives methods (.operators levels) lexs e d := by
  induction levels with
  | nil => exact .operand (.ofSuffixed (.ofPrimary derived))
  | cons level levels ih => exact .tighter ih

theorem derives_looser {levels : List OpLevel} {lexs : List Lexeme} {d : Nat}
    (derived : Derives methods (.operators levels) lexs e d) (before : List OpLevel) :
    Derives methods (.operators (before ++ levels)) lexs e d := by
  induction before with
  | nil => exact derived
  | cons level before ih => exact .tighter ih

/-- The mark that an operator is written as. -/
def opMark : BinOp → Punct
  | .or => .or
  | .and => .and
  | .strictEq => .strictEq
  | .strictNe => .strictNe
  | .looseEq => .looseEq
  | .looseNe => .looseNe
  | .gt => .gt
  | .lt => .lt
  | .ge => .ge
  | .le => .le

theorem text_opMark (op : BinOp) : (opMark op).text = op.text := by cases op <;> rfl

theorem opMark_level (op : BinOp) : ∃ before level after, OpLevel.all = before ++ level :: after ∧
    OpLevel.operator? level (.punct (opMark op)) = some op := by
  cases op with
  | or => exact ⟨[], .or, _, rfl, rfl⟩
  | and => exact ⟨[.or], .and, _, rfl, rfl⟩
  | strictEq | strictNe | looseEq | looseNe => exact ⟨[.or, .and], .equality, _, rfl, rfl⟩
  | gt | lt | ge | le => exact ⟨[.or, .and, .equality], .relation, _, rfl, rfl⟩

/-- Between primary parts the level of an operator does not matter. -/
theorem derives_operation (op : BinOp) {lexs lexs' : List Lexeme} {d d' : Nat}
    (left : Derives methods .primary lexs l d) (right : Derives methods .primary lexs' r d') :
    DerivesAll methods (lexs ++ .punct (opMark op) :: lexs') (.binary op l r) (max d d') := by
  obtain ⟨before, level, after, whole, known⟩ := opMark_level op
  have joined := Derives.binary (derives_operators left (level :: after)) known
    (derives_operators right after)
  rw [DerivesAll, whole]
  exact derives_looser joined before

theorem Writes.binary (op : BinOp) (left : Writes methods .primary x l)
    (right : Writes methods .primary y r) :
    Writes methods (.operators OpLevel.all) (x ++ ' ' :: (op.text ++ ' ' :: y))
      (.binary op l r) where
  begun := left.begun.append _
  reads := by
    obtain ⟨lexs, d, derived, low, short, spelled⟩ := left.reads
    obtain ⟨lexs', d', derived', low', short', spelled'⟩ := right.reads
    have second := spelled'.blank.mark (opMark op) (begun_cons (by decide))
    rw [text_opMark] at second
    refine ⟨_, _, derives_operation op derived derived', ?_, ?_, ?_⟩
    · rw [openings_append x, openings_cons ' ', openings_append op.text, openings_cons ' ' y]
      omega
    · exact List.forall_mem_append.2 ⟨short, List.forall_mem_cons.2 ⟨rfl, short'⟩⟩
    · exact spelled.append second.blank fun rest => clear_cons ⟨by decide, by decide⟩ (by decide)

/-- A suffix after a target; `k` is the nesting within the suffix. -/
theorem Writes.suffix {lexs : List Lexeme} {k : Nat} (target : Writes methods .primary x l)
    (spelled : Spelled y lexs) (clear : ∀ rest, Clear (y ++ rest))
    (short : ∀ u ∈ lexs, u.isOverlong = false) (low : k ≤ openings y)
    (derive : ∀ {front d}, Derives methods .suffixed front l d →
      ∃ d' ≤ max d k, Derives methods .suffixed (front ++ lexs) e d') :
    Writes methods .suffixed (x ++ y) e where
  begun := target.begun.append y
  reads := by
    obtain ⟨front, d, derived, low', short', spelled'⟩ := target.reads
    obtain ⟨d', least, derivation⟩ := derive (.ofPrimary derived)
    refine ⟨front ++ lexs, d', derivation, ?_, List.forall_mem_append.2 ⟨short', short⟩,
      spelled'.append spelled clear⟩
    rw [openings_append]
    omega

theorem short_property {name : Text} (property : IsPropertyName name) :
    (Lexeme.name name).isOverlong = false :=
  isOverlong_property (by simpa [isProperty] using property.2)

/-- A name after a dot, and what follows the name. -/
theorem spelled_property {name : Text} {lexs : List Lexeme} (property : IsPropertyName name)
    (spelled : Spelled x lexs) (clear : ∀ rest, Clear (x ++ rest)) :
    Spelled ('.' :: (name ++ x)) (.punct .dot :: .name name :: lexs) :=
  ((Token.spelled_name property.1).append spelled clear).mark .dot
    ((begun_name property.1).append x)

theorem clear_dotted {name : Text} (property : IsPropertyName name) (x rest : Text) :
    Clear ('.' :: (name ++ x) ++ rest) := by
  rw [List.cons_append, List.append_assoc]
  exact clear_property property.1

theorem Writes.member {name : Text} (target : Writes methods .primary x e)
    (property : IsPropertyName name) :
    Writes methods .suffixed (x ++ '.' :: name) (.member e name) := by
  have spelled : Spelled ('.' :: name) [.punct .dot, .name name] :=
    (Token.spelled_name property.1).mark .dot (begun_name property.1)
  refine target.suffix spelled (fun _ => clear_property property.1) ?_ (Nat.zero_le _) ?_
  · exact List.forall_mem_cons.2 ⟨rfl, List.forall_mem_singleton.2 (short_property property)⟩
  · exact fun {_ d} derived => ⟨d, Nat.le_max_left d 0, .member derived property.2⟩

theorem Writes.call {name : Text} (target : Writes methods .primary x e)
    (property : IsPropertyName name) (granted : name ∈ methods) :
    Writes methods .suffixed (x ++ '.' :: (name ++ ['(', ')'])) (.call e name) := by
  have empty : Spelled ['(', ')'] [.punct .openParen, .punct .closeParen] :=
    (Token.spelled_mark .closeParen).mark .openParen (begun_cons (by decide))
  refine target.suffix (spelled_property property empty fun rest => clear_openParen (')' :: rest))
    (clear_dotted property _) ?_ (Nat.zero_le _) ?_
  · refine List.forall_mem_cons.2 ⟨rfl, List.forall_mem_cons.2 ⟨short_property property, ?_⟩⟩
    exact List.forall_mem_cons.2 ⟨rfl, List.forall_mem_singleton.2 rfl⟩
  · exact fun {_ d} derived => ⟨d, Nat.le_max_left d 0, .call derived property.2 granted⟩

theorem Writes.callWith {name : Text} (target : Writes methods .primary x l)
    (property : IsPropertyName name) (granted : name ∈ methods)
    (argument : Writes methods (.operators OpLevel.all) y r) :
    Writes methods .suffixed (x ++ '.' :: (name ++ '(' :: (y ++ [')']))) (.callWith l name r) := by
  obtain ⟨lexs, d', inner, low, short, spelled⟩ := argument.reads
  refine target.suffix (spelled_property property (spelled_enclosed spelled argument.begun)
    fun rest => clear_openParen _) (clear_dotted property _) ?_ (k := d' + 1) ?_ ?_
  · refine List.forall_mem_cons.2 ⟨rfl, List.forall_mem_cons.2 ⟨short_property property, ?_⟩⟩
    refine List.forall_mem_cons.2 ⟨rfl, List.forall_mem_append.2 ⟨short, ?_⟩⟩
    exact List.forall_mem_singleton.2 rfl
  · rw [openings_cons '.', openings_append name, openings_cons '(', openings_append y]
    have one : openings ['('] = 1 := rfl
    omega
  · exact fun {_ d} derived => ⟨_, Nat.le_refl _, .callWith derived property.2 granted inner⟩

/-- A key is spelled as the lexeme that denotes it. -/
theorem spelled_key {key : Key} (wellFormed : key.WellFormed) : ∃ sign, key? sign = some key ∧
    sign.isOverlong = false ∧ Begun key.print ∧ Spelled key.print [sign] := by
  cases key with
  | integer n =>
    exact ⟨.integer n, rfl, rfl, (Token.isDigits_ofNat n).begun, Token.spelled_integer wellFormed⟩
  | text t => exact ⟨.text t, rfl, rfl, begun_cons (by decide), Token.spelled_text t⟩

theorem writes_index {n : Nat} {key : Key} (readable : IsReadable n)
    (wellFormed : key.WellFormed) :
    Writes methods .suffixed (variableName n ++ '[' :: (key.print ++ [']'])) (.index n key) := by
  obtain ⟨sign, known, short, begun, spelled⟩ := spelled_key wellFormed
  have closed : Spelled (key.print ++ [']']) [sign, .punct .closeBracket] :=
    spelled.append (Token.spelled_mark .closeBracket) fun _ =>
      clear_cons ⟨by decide, by decide⟩ (by decide)
  refine (writes_variable readable).suffix (closed.mark .openBracket (begun.append _)) ?_ ?_
    (Nat.zero_le _) ?_
  · exact fun _ => clear_cons ⟨by decide, by decide⟩ (by decide)
  · exact List.forall_mem_cons.2 ⟨rfl, List.forall_mem_cons.2 ⟨short,
      List.forall_mem_singleton.2 rfl⟩⟩
  · exact fun {_ d} derived => ⟨d, Nat.le_max_left d 0, .index derived known⟩

end Parts

/-- A tree is written by what is printed for it, as a primary part if it is an atom. -/
structure Prints (methods : List Text) (e : Expr) : Prop where
  whole : Writes methods (.operators OpLevel.all) e.print e
  atom : e.isAtom = true → Writes methods .primary e.print e

theorem Prints.enclosed (prints : Prints methods e) :
    Writes methods .primary (enclose e e.print) e := by
  unfold enclose
  split
  next isAtom => exact prints.atom isAtom
  next => exact prints.whole.group

theorem prints_primary (writes : Writes methods .primary e.print e) : Prints methods e :=
  ⟨writes.widen fun derived => derives_operators derived OpLevel.all, fun _ => writes⟩

theorem prints_unary (writes : Writes methods .unary e.print e) (large : e.isAtom = false) :
    Prints methods e where
  whole := writes.widen fun derived => derives_looser (.operand derived) OpLevel.all
  atom := fun isAtom => by rw [large] at isAtom; cases isAtom

theorem prints_suffixed (writes : Writes methods .suffixed e.print e) (large : e.isAtom = false) :
    Prints methods e :=
  prints_unary (writes.widen .ofSuffixed) large

theorem prints_literal {v : Literal} (wellFormed : v.WellFormed) : Prints methods (.literal v) := by
  cases v with
  | null => exact prints_primary (writes_reserved rfl rfl rfl)
  | bool b => cases b <;> exact prints_primary (writes_reserved rfl rfl rfl)
  | integer n =>
    cases n with
    | ofNat n => exact prints_primary (writes_integer wellFormed)
    | negSucc n => exact prints_unary (writes_negative wellFormed) rfl
  | decimal x => cases wellFormed
  | text t => exact prints_primary (writes_text t)

theorem prints_of_wellFormed (wellFormed : e.WellFormed methods) : Prints methods e := by
  induction e with
  | literal v => exact prints_literal wellFormed
  | «variable» n => exact prints_primary (writes_variable wellFormed)
  | index n key => exact prints_suffixed (writes_index wellFormed.1 wellFormed.2) rfl
  | member target name ih =>
    obtain ⟨target, property⟩ := wellFormed
    exact prints_suffixed ((ih target).enclosed.member property) rfl
  | call target name ih =>
    obtain ⟨target, property, granted⟩ := wellFormed
    exact prints_suffixed ((ih target).enclosed.call property granted) rfl
  | callWith target name argument ih ihArgument =>
    obtain ⟨target, property, granted, argument⟩ := wellFormed
    exact prints_suffixed
      ((ih target).enclosed.callWith property granted (ihArgument argument).whole) rfl
  | not e ih => exact prints_unary (ih wellFormed).enclosed.not rfl
  | binary op l r ihLeft ihRight =>
    have writes := Writes.binary op (ihLeft wellFormed.1).enclosed (ihRight wellFormed.2).enclosed
    exact ⟨writes, nofun⟩

/-- A well-formed tree is read back from what is printed for it. -/
theorem read_print {allowed : Allowance} (wellFormed : e.WellFormed allowed.methods)
    (deep : (openings e.print : Int) ≤ allowed.depth.value) : read allowed e.print = .ok e := by
  obtain ⟨lexs, d, derived, low, short, spelled⟩ := (prints_of_wellFormed wellFormed).whole.reads
  have laid := spelled [] [] Token.clear_nil .nil
  rw [List.append_nil, List.append_nil] at laid
  obtain ⟨ts, rfl, lexed⟩ := laid 0
  have short : ∀ t ∈ ts, t.lexeme.isOverlong = false := fun t member =>
    short t.lexeme (List.mem_map_of_mem member)
  exact bind_eq_ok.2 ⟨ts, Token.lexFrom_of_lexed lexed, parse_of_derives short (by omega) derived⟩

section Derived

/-- A lexeme of a text without decimals and without overlong variables. -/
structure Plain (l : Lexeme) : Prop where
  spelled : ∃ source, Token.Spells l source
  whole : ∀ x, l ≠ .decimal x
  short : l.isOverlong = false

theorem Plain.readable {n : Nat} (plain : Plain (.integer n)) : IsReadable n := by
  obtain ⟨source, spells⟩ := plain.spelled
  cases spells with
  | integer digits short => exact Nat.le_trans (Token.length_ofNat_toNat digits) short

theorem Plain.property {name : Text} (plain : Plain (.name name))
    (property : isProperty name = true) : IsPropertyName name := by
  obtain ⟨source, spells⟩ := plain.spelled
  exact ⟨spells.name_source.2, property⟩

theorem Plain.variable {name digits : Text} (plain : Plain (.name name))
    (known : variableDigits? name = some digits) : IsReadable (Text.toNat digits) := by
  have bound : ¬digitLimit < digits.length := by
    simpa [Lexeme.isOverlong, known] using plain.short
  have isDigits : Token.IsDigits digits := by
    unfold variableDigits? at known
    split at known
    next =>
      split at known
      next filled =>
        cases known
        simp only [Bool.and_eq_true, Bool.not_eq_true', List.isEmpty_eq_false_iff,
          List.all_eq_true] at filled
        exact filled
      next => cases known
    next => cases known
  exact Nat.le_trans (Token.length_ofNat_toNat isDigits) (Nat.not_lt.1 bound)

theorem wellFormed_reserved {name : Text} {v : Literal} (known : Literal.ofName? name = some v) :
    v.WellFormed := by
  unfold Literal.ofName? at known
  split at known
  · cases known; trivial
  · split at known
    · cases known; trivial
    · split at known <;> cases known
      trivial

theorem wellFormed_of_derives {lexs : List Lexeme} {d : Nat}
    (derived : Derives methods form lexs e d) (plain : ∀ l ∈ lexs, Plain l) :
    e.WellFormed methods := by
  induction derived with
  | operand _ ih | tighter _ ih | ofSuffixed _ ih | ofPrimary _ ih => exact ih plain
  | binary _ _ _ ihLeft ihRight =>
    obtain ⟨left, right⟩ := List.forall_mem_append.1 plain
    exact ⟨ihLeft left, ihRight (List.forall_mem_cons.1 right).2⟩
  | not _ ih => exact ih (List.forall_mem_cons.1 plain).2
  | negativeInteger n =>
    have readable : IsReadable n := (plain _ (by simp)).readable
    rw [WellFormed, Literal.WellFormed, Int.natAbs_neg]
    exact readable
  | negativeDecimal x => exact absurd rfl ((plain (.decimal x) (by simp)).whole x)
  | member _ property ih =>
    obtain ⟨target, suffix⟩ := List.forall_mem_append.1 plain
    exact ⟨ih target, (suffix _ (by simp)).property property⟩
  | call _ property granted ih =>
    obtain ⟨target, suffix⟩ := List.forall_mem_append.1 plain
    exact ⟨ih target, (suffix _ (by simp)).property property, granted⟩
  | callWith _ property granted _ ih ihArgument =>
    obtain ⟨target, suffix⟩ := List.forall_mem_append.1 plain
    refine ⟨ih target, (suffix _ (by simp)).property property, granted, ihArgument fun l inside => ?_⟩
    exact suffix l (by simp [inside])
  | @index _ _ _ sign key target known ih =>
    obtain ⟨base, suffix⟩ := List.forall_mem_append.1 plain
    refine ⟨ih base, ?_⟩
    have plainKey : Plain sign := suffix sign (by simp)
    cases sign with
    | integer => cases known; exact plainKey.readable
    | text => cases known; trivial
    | decimal | punct | name => cases known
  | integer n => exact (plain _ (by simp)).readable
  | decimal x => exact absurd rfl ((plain (.decimal x) (by simp)).whole x)
  | text t => trivial
  | reserved known => exact wellFormed_reserved known
  | «variable» known => exact (plain _ (by simp)).variable known
  | group _ ih =>
    obtain ⟨_, inner⟩ := List.forall_mem_cons.1 plain
    exact ih (List.forall_mem_append.1 inner).1

theorem wellFormed_of_read {allowed : Allowance} {t : Text} {ts : List Token}
    (lexed : Token.lex t = .ok ts) (whole : ∀ u ∈ ts, ∀ x, u.lexeme ≠ .decimal x)
    (read : read allowed t = .ok e) : e.WellFormed allowed.methods := by
  obtain ⟨_, lexed', parsed⟩ := bind_eq_ok.1 read
  cases lexed.symm.trans lexed'
  obtain ⟨d, _, derived⟩ := derives_of_parse parsed
  refine wellFormed_of_derives derived fun l inside => ?_
  obtain ⟨u, member, rfl⟩ := List.mem_map.1 inside
  exact ⟨⟨_, (Token.lexed_of_lex lexed).spells u member⟩, whole u member,
    short_of_parse parsed u member⟩

end Derived

/-- Every well-formed tree is read back from what is printed for it, and every tree that is read
from a text without decimals is well-formed; so reading, printing and reading gives it again. -/
theorem print_round_trip :
    (∀ methods e depth, WellFormed methods e → (openings e.print : Int) ≤ depth.value →
      read ⟨methods, depth⟩ e.print = .ok e) ∧
    ∀ allowed t ts e, Token.lex t = .ok ts → (∀ u ∈ ts, ∀ x, u.lexeme ≠ .decimal x) →
      read allowed t = .ok e → e.WellFormed allowed.methods ∧
        ∀ depth : Limit, (openings e.print : Int) ≤ depth.value →
          read ⟨allowed.methods, depth⟩ e.print = .ok e := by
  refine ⟨fun methods e depth wellFormed deep => read_print wellFormed deep, ?_⟩
  intro allowed t ts e lexed whole read
  have wellFormed := wellFormed_of_read lexed whole read
  exact ⟨wellFormed, fun depth deep => read_print wellFormed deep⟩

/-- A call on a negative number, compared with a negated text that has to be escaped. -/
theorem print_negative_target :
    (Expr.binary .looseEq (.call (.literal (.integer (-1))) ("toString" : String).toList)
        (.not (.literal (.text ("it's\\" : String).toList)))).print =
      ("((-1).toString()) == (!'it\\'s\\\\')" : String).toList ∧
    read ⟨defaultMethods, .count 5⟩ ("((-1).toString()) == (!'it\\'s\\\\')" : String).toList =
      .ok (.binary .looseEq (.call (.literal (.integer (-1))) ("toString" : String).toList)
        (.not (.literal (.text ("it's\\" : String).toList)))) := by
  have printed : (Expr.binary .looseEq
      (.call (.literal (.integer (-1))) ("toString" : String).toList)
        (.not (.literal (.text ("it's\\" : String).toList)))).print =
      ("((-1).toString()) == (!'it\\'s\\\\')" : String).toList := by decide
  refine ⟨printed, ?_⟩
  rw [← printed]
  exact print_round_trip.1 defaultMethods _ (.count 5) (by decide) (by decide)

end BranchGate.Expr
