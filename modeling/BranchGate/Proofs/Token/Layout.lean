import BranchGate.Expr.Printer
import BranchGate.Proofs.Token.Lexed
import Mathlib.Algebra.Ring.Nat

/-! Texts put together from tokens. A text is laid out as lexemes wherever it stands; a part of it
keeps its lexemes before every text that does not prolong it. -/
namespace BranchGate.Token

/-- From every position on, the text has tokens of these lexemes. -/
def Laid (x : Text) (lexs : List Lexeme) : Prop :=
  ∀ pos, ∃ ts, ts.map lexeme = lexs ∧ Lexed pos x ts

variable {x rest : Text} {lexs : List Lexeme}

theorem Laid.nil : Laid [] [] := fun _ => ⟨[], rfl, .done⟩

theorem Laid.layout {gap : Text} (layout : ∀ c ∈ gap, Text.isLayout c = true)
    (laid : Laid x lexs) : Laid (gap ++ x) lexs := by
  induction gap with
  | nil => exact laid
  | cons c gap ih =>
    obtain ⟨first, others⟩ := List.forall_mem_cons.1 layout
    intro pos
    obtain ⟨ts, same, lexed⟩ := ih others (pos + 1)
    exact ⟨ts, same, .layout first lexed⟩

theorem Laid.blank (laid : Laid x lexs) : Laid (' ' :: x) lexs := by
  have layout : ∀ c ∈ [' '], Text.isLayout c = true := by simp [Text.isLayout]
  exact laid.layout layout

theorem Laid.token {l : Lexeme} {source : Text} (spells : Spells l source)
    (apart : Apart l source x) (laid : Laid x lexs) : Laid (source ++ x) (l :: lexs) := by
  intro pos
  obtain ⟨ts, same, lexed⟩ := laid (pos + source.length)
  exact ⟨⟨l, source, pos⟩ :: ts, by simp [same], .token spells apart lexed⟩

/-- A mark is prolonged by an equals sign only. -/
theorem punct_prolonged : ∀ p ∈ Punct.all, ∀ m ∈ Punct.all, p.text <+: m.text →
    m.text = p.text ∨ (m.text.drop p.text.length).head? = some '=' := by decide

theorem apart_mark (p : Punct) (next : ∀ c ∈ rest.head?, c ≠ '=') :
    Apart (.punct p) p.text rest := by
  intro m begins
  refine Nat.le_of_not_lt fun longer => ?_
  have inner := List.prefix_of_prefix_length_le (List.prefix_append p.text rest) begins
    (Nat.le_of_lt longer)
  rcases punct_prolonged p (Punct.mem_all p) m (Punct.mem_all m) inner with same | equals
  · rw [same] at longer
    exact absurd longer (Nat.lt_irrefl _)
  · obtain ⟨tail, whole⟩ := inner
    rw [← whole, List.drop_left] at equals
    rw [← whole, List.prefix_append_right_inj] at begins
    obtain ⟨more, rfl⟩ := begins
    obtain ⟨c, tail, rfl⟩ : ∃ c more, tail = c :: more := by
      cases tail with
      | nil => cases equals
      | cons c more => exact ⟨c, more, rfl⟩
    cases equals
    exact next '=' rfl rfl

/-- No token goes on into the text. -/
structure Clear (rest : Text) : Prop where
  head : ∀ c ∈ rest.head?, Text.isNameChar c = false ∧ c ≠ '='
  places : ∀ d tail, rest = '.' :: d :: tail → d.isDigit = false

theorem clear_nil : Clear [] := ⟨nofun, nofun⟩

theorem clear_cons {c : Char} (other : Text.isNameChar c = false ∧ c ≠ '=') (point : c ≠ '.') :
    Clear (c :: rest) where
  head := by rintro _ ⟨⟩; exact other
  places := by rintro _ _ ⟨⟩; exact absurd rfl point

theorem clear_layout {c : Char} (layout : Text.isLayout c = true) : Clear (c :: rest) := by
  refine clear_cons ⟨Text.isNameChar_of_isLayout layout, ?_⟩ ?_
  · rintro rfl
    cases layout
  · rintro rfl
    cases layout

theorem clear_property {name : Text} (named : Text.isName name = true) :
    Clear ('.' :: (name ++ rest)) where
  head := by rintro _ ⟨⟩; decide
  places := by
    cases name with
    | nil => cases named
    | cons c tail =>
      rintro _ _ ⟨⟩
      simp only [Text.isName, Bool.and_eq_true] at named
      cases digit : c.isDigit with
      | false => rfl
      | true => cases (Text.isNameStart_of_isDigit digit).symm.trans named.1

theorem Clear.not_equals (clear : Clear rest) : ∀ c ∈ rest.head?, c ≠ '=' :=
  fun c first => (clear.head c first).2

theorem Clear.no_digit (clear : Clear rest) : ∀ c ∈ rest.head?, c.isDigit = false := by
  intro c first
  have other := (clear.head c first).1
  simp only [Text.isNameChar, Bool.or_eq_false_iff] at other
  exact other.2

theorem Clear.apart {l : Lexeme} {source : Text} (clear : Clear rest) (spells : Spells l source) :
    Apart l source rest := by
  cases spells with
  | integer => exact ⟨clear.no_digit, clear.places⟩
  | decimal => exact clear.no_digit
  | text => trivial
  | punct p => exact apart_mark p clear.not_equals
  | name => exact fun c first => (clear.head c first).1

/-- The text has these lexemes, whatever clear text follows. -/
def Spelled (x : Text) (lexs : List Lexeme) : Prop :=
  ∀ rest more, Clear rest → Laid rest more → Laid (x ++ rest) (lexs ++ more)

theorem spelled_token {l : Lexeme} {source : Text} (spells : Spells l source) :
    Spelled source [l] :=
  fun _ _ clear laid => laid.token spells (clear.apart spells)

theorem spelled_mark (p : Punct) : Spelled p.text [.punct p] :=
  spelled_token (.punct p)

theorem Spelled.append {y : Text} {lexs' : List Lexeme} (left : Spelled x lexs)
    (right : Spelled y lexs') (clear : ∀ rest, Clear (y ++ rest)) :
    Spelled (x ++ y) (lexs ++ lexs') := by
  intro rest more clear' laid
  rw [List.append_assoc, List.append_assoc]
  exact left (y ++ rest) (lexs' ++ more) (clear rest) (right rest more clear' laid)

theorem Spelled.blank (spelled : Spelled x lexs) : Spelled (' ' :: x) lexs :=
  fun rest more clear laid => (spelled rest more clear laid).blank

/-- The text has a beginning that prolongs no mark. -/
def Begun (x : Text) : Prop := ∃ c tail, x = c :: tail ∧ c ≠ '='

theorem begun_cons {c : Char} (other : c ≠ '=') : Begun (c :: x) := ⟨c, x, rfl, other⟩

theorem Begun.append (begun : Begun x) (rest : Text) : Begun (x ++ rest) := by
  obtain ⟨c, tail, rfl, other⟩ := begun
  exact begun_cons other

theorem Begun.next (begun : Begun x) : ∀ c ∈ x.head?, c ≠ '=' := by
  obtain ⟨c, tail, rfl, other⟩ := begun
  rintro _ ⟨⟩
  exact other

theorem Spelled.mark (p : Punct) (spelled : Spelled x lexs) (begun : Begun x) :
    Spelled (p.text ++ x) (.punct p :: lexs) := by
  intro rest more clear laid
  rw [List.append_assoc]
  exact (spelled rest more clear laid).token (.punct p) (apart_mark p (begun.append rest).next)

theorem isDigits_ofNat (n : Nat) : IsDigits (Text.ofNat n) :=
  ⟨Nat.toDigits_ne_nil, fun _ inside => Nat.isDigit_of_mem_toDigits (by decide) (by decide) inside⟩

theorem IsDigits.begun {ds : Text} (digits : IsDigits ds) : Begun ds := by
  obtain ⟨c, tail, rfl, digit⟩ := digits.cons
  refine begun_cons ?_
  rintro rfl
  cases digit

theorem begun_name {name : Text} (named : Text.isName name = true) : Begun name := by
  cases name with
  | nil => cases named
  | cons c tail =>
    refine begun_cons ?_
    rintro rfl
    cases named

theorem ofDigitChars_lt {ds : Text} (digits : ∀ d ∈ ds, d.isDigit = true) (n : Nat) :
    Nat.ofDigitChars 10 ds n < (n + 1) * 10 ^ ds.length := by
  induction ds generalizing n with
  | nil => simp
  | cons d ds ih =>
    obtain ⟨digit, others⟩ := List.forall_mem_cons.1 digits
    have range := Text.isDigit_range digit
    have zero : '0'.toNat = 48 := rfl
    have next : 10 * n + (d.toNat - '0'.toNat) + 1 ≤ (n + 1) * 10 := by omega
    calc Nat.ofDigitChars 10 (d :: ds) n
      _ = Nat.ofDigitChars 10 ds (10 * n + (d.toNat - '0'.toNat)) := Nat.ofDigitChars_cons
      _ < (10 * n + (d.toNat - '0'.toNat) + 1) * 10 ^ ds.length := ih others _
      _ ≤ (n + 1) * 10 * 10 ^ ds.length := Nat.mul_le_mul_right _ next
      _ = (n + 1) * 10 ^ (d :: ds).length := by rw [List.length_cons, Nat.pow_succ', Nat.mul_assoc]

/-- Written out, a number has no more digits than it was read from. -/
theorem length_ofNat_toNat {ds : Text} (digits : IsDigits ds) :
    (Text.ofNat (Text.toNat ds)).length ≤ ds.length := by
  rw [Text.ofNat, Nat.length_toDigits_le_iff (by decide) (List.length_pos_iff.2 digits.1)]
  have below := ofDigitChars_lt digits.2 0
  rwa [Nat.zero_add, Nat.one_mul] at below

theorem spelled_integer {n : Nat} (short : (Text.ofNat n).length ≤ digitLimit) :
    Spelled (Text.ofNat n) [.integer n] := by
  have spells : Spells (.integer (Text.toNat (Text.ofNat n))) (Text.ofNat n) :=
    .integer (isDigits_ofNat n) short
  rw [Text.toNat_ofNat] at spells
  exact spelled_token spells

theorem spelled_name {name : Text} (named : Text.isName name = true) : Spelled name [.name name] :=
  spelled_token (.name named)

/-- What single quotes contain once quotes and backslashes are escaped. -/
theorem quoted_escaped (t : Text) :
    Quoted .single (t.flatMap fun c => if c = Quote.single.char ∨ c = '\\' then ['\\', c] else [c]) ∧
      unescape (t.flatMap fun c => if c = Quote.single.char ∨ c = '\\' then ['\\', c] else [c]) =
        t := by
  induction t with
  | nil => exact ⟨.nil, rfl⟩
  | cons c t ih =>
    rw [List.flatMap_cons]
    by_cases special : c = Quote.single.char ∨ c = '\\'
    · rw [if_pos special]
      refine ⟨.escape ?_ ih.1, ?_⟩
      · rcases special with rfl | rfl <;> decide
      · simp [unescape, ih.2]
    · rw [if_neg special]
      obtain ⟨bare, slash⟩ := not_or.1 special
      refine ⟨.plain bare slash ih.1, ?_⟩
      rw [List.singleton_append, unescape, ih.2]
      rintro d tail rfl
      exact fun _ => slash rfl

theorem spelled_text (t : Text) : Spelled t.singleQuoted [.text t] := by
  have spells := Spells.text (quoted_escaped t).1
  rw [(quoted_escaped t).2] at spells
  exact spelled_token spells

end BranchGate.Token
