import BranchGate.Proofs.Mask.Tokens

/-! Every text that is laid out as tokens lexes to them, so the relation and the lexer say the
same, and a text has the tokens of one layout only. -/
namespace BranchGate.Token

theorem splitNumber_whole {ds rest : Text} (digits : IsDigits ds)
    (stop : ∀ d ∈ rest.head?, d.isDigit = false)
    (noPoint : ∀ d tail, rest = '.' :: d :: tail → d.isDigit = false) :
    splitNumber (ds ++ rest) = (ds, rest) := by
  obtain ⟨taken, left⟩ := takeWhile_append_stop digits.2 stop
  simp only [splitNumber, taken, left]
  split
  next d tail =>
    have other := noPoint d tail rfl
    simp [other]
  next => rfl

theorem splitNumber_decimal {whole places rest : Text} (digits : IsDigits whole)
    (digits' : IsDigits places) (stop : ∀ d ∈ rest.head?, d.isDigit = false) :
    splitNumber (whole ++ '.' :: places ++ rest) = (whole ++ '.' :: places, rest) := by
  obtain ⟨d, tail, rfl, digit⟩ := digits'.cons
  have point : ∀ c ∈ ('.' :: (d :: tail ++ rest)).head?, c.isDigit = false := by
    rintro _ ⟨⟩
    rfl
  obtain ⟨taken, left⟩ := takeWhile_append_stop digits.2 point
  have inner : ∀ c ∈ tail, c.isDigit = true := fun c inside =>
    digits'.2 c (List.mem_cons_of_mem d inside)
  obtain ⟨taken', left'⟩ := takeWhile_append_stop inner stop
  simp only [List.append_assoc, List.cons_append] at taken left ⊢
  simp [splitNumber, taken, left, taken', left', digit]

theorem splitString_of_quoted {q : Quote} {body : Text} (quoted : Quoted q body) (rest : Text) :
    splitString q (body ++ q.char :: rest) = some (body ++ [q.char], rest) := by
  induction quoted with
  | nil => cases q <;> rfl
  | @plain c body bare slash _ ih =>
    have step (s : Text) : splitString q (c :: s) =
        (splitString q s).map fun cut => (c :: cut.1, cut.2) := by
      rw [splitString]
      · simp [bare, slash]
      · rintro d tail rfl
        exact fun _ => slash rfl
    rw [List.cons_append, step, ih]
    rfl
  | escape feed _ ih =>
    rw [List.cons_append, List.cons_append, splitString]
    simp [feed, ih]

/-- The first mark of the list that a text begins with is the one it is apart as. -/
theorem splitPunct_of_apart {p : Punct} {rest : Text} (apart : Apart (.punct p) p.text rest) :
    splitPunct (p.text ++ rest) = some ⟨.punct p, p.text, rest⟩ := by
  have fits : p.text.isPrefixOf (p.text ++ rest) = true :=
    List.isPrefixOf_iff_prefix.2 (List.prefix_append p.text rest)
  obtain ⟨before, after, order⟩ := List.append_of_mem (Punct.mem_all p)
  have found : Punct.all.find? (fun m => m.text.isPrefixOf (p.text ++ rest)) = some p := by
    refine List.find?_eq_some_iff_append.2 ⟨fits, before, after, order, fun m sooner => ?_⟩
    rw [Bool.not_eq_true', ← Bool.not_eq_true, List.isPrefixOf_iff_prefix]
    intro begins
    -- No longer than the mark itself, `m` begins it, which no sooner mark does.
    have inner := List.prefix_of_prefix_length_le begins (List.prefix_append p.text rest)
      (apart m begins)
    have pairs := punct_order
    rw [order, List.pairwise_append] at pairs
    exact pairs.2.2 m sooner p List.mem_cons_self inner
  rw [splitPunct, found]
  simp

/-- A text that begins with a token, apart from what follows, is cut right after it. -/
theorem split_of_spells {lexeme : Lexeme} {source rest : Text} (spells : Spells lexeme source)
    (apart : Apart lexeme source rest) :
    ∃ shape, split (source ++ rest) = some ⟨shape, source, rest⟩ ∧
      Piece.read ⟨shape, source, rest⟩ = .ok lexeme := by
  cases spells with
  | integer digits short =>
    have cut := splitNumber_whole digits apart.1 apart.2
    obtain ⟨d, tail, rfl, digit⟩ := digits.cons
    refine ⟨.number, ?_, ?_⟩
    · rw [List.cons_append] at cut ⊢
      simp only [split, digit, cut, ↓reduceIte]
    · simp only [Piece.read, readNumber_whole digits, readDigits, Nat.not_lt.2 short, ↓reduceIte]
      rfl
  | @decimal whole places digits digits' =>
    have cut := splitNumber_decimal digits digits' apart
    have read : readNumber (whole ++ '.' :: places) = _ := readNumber_decimal digits
    obtain ⟨d, tail, rfl, digit⟩ := digits.cons
    refine ⟨.number, ?_, read⟩
    rw [List.cons_append, List.cons_append] at cut ⊢
    simp only [split, digit, cut, ↓reduceIte]
  | @text q body quoted =>
    have digit := Text.isDigit_quote q
    have start : Text.isNameStart q.char = false := by cases q <;> decide
    refine ⟨.string, ?_, by simp [Piece.read]⟩
    simp [split, digit, start, Quote.ofChar?_char, splitString_of_quoted quoted]
  | punct p =>
    have cut := splitPunct_of_apart apart
    obtain ⟨c, tail, shape⟩ := List.exists_cons_of_ne_nil (Punct.text_ne_nil p)
    obtain ⟨_, _, _, outside, unquoted⟩ := Text.punct_char (p := p) (c := c) (by simp [shape])
    simp only [Text.isNameChar, Bool.or_eq_false_iff] at outside
    refine ⟨.punct p, ?_, rfl⟩
    rw [shape, List.cons_append] at cut ⊢
    simp [split, outside.1, outside.2, unquoted, cut]
  | name named =>
    cases source with
    | nil => cases named
    | cons c tail =>
      simp only [Text.isName, Bool.and_eq_true, List.all_eq_true] at named
      have digit : c.isDigit = false := by
        cases digit : c.isDigit with
        | false => rfl
        | true => simp [Text.isNameStart_of_isDigit digit] at named
      obtain ⟨taken, left⟩ := takeWhile_append_stop named.2 apart
      refine ⟨.name, ?_, rfl⟩
      simp [split, digit, named.1, taken, left]

theorem Spells.not_layout {lexeme : Lexeme} {source : Text} (spells : Spells lexeme source) :
    ∀ c ∈ source.head?, Text.isLayout c = false := by
  intro c first
  obtain ⟨d, tail, shown, begins⟩ := spells.mask_first
  have same : source.head? = some d := by rw [← head?_maskFrom_code, shown, List.head?_cons]
  cases first.symm.trans same
  cases layout : Text.isLayout c with
  | false => rfl
  | true =>
    have blank := Text.isBlank_of_isLayout layout
    rw [begins.ink] at blank
    cases blank

theorem lexFrom_of_lexed {pos : Nat} {s : Text} {ts : List Token} (lexed : Lexed pos s ts) :
    lexFrom pos s = .ok ts := by
  induction lexed with
  | done => rw [lexFrom]
  | layout layout _ ih => rw [lexFrom]; simp [layout, ih]
  | @token pos lexeme source rest ts spells apart _ ih =>
    obtain ⟨shape, cut, read⟩ := split_of_spells spells apart
    have ink := spells.not_layout
    obtain ⟨c, tail, rfl⟩ := List.exists_cons_of_ne_nil spells.ne_nil
    rw [List.cons_append] at cut ⊢
    rw [lexFrom]
    simp only [ink c rfl, Bool.false_eq_true, ↓reduceIte]
    split
    next piece same =>
      cases cut.symm.trans same
      simp only [read, ih]
    next none => rw [cut] at none; cases none

theorem lex_eq_ok {s : Text} {ts : List Token} : lex s = .ok ts ↔ Lexed 0 s ts :=
  ⟨lexed_of_lex, lexFrom_of_lexed⟩

theorem Lexed.unique {pos : Nat} {s : Text} {ts ts' : List Token} (lexed : Lexed pos s ts)
    (lexed' : Lexed pos s ts') : ts = ts' :=
  Except.ok.inj ((lexFrom_of_lexed lexed).symm.trans (lexFrom_of_lexed lexed'))

theorem Spells.apart_nil {lexeme : Lexeme} {source : Text} (spells : Spells lexeme source) :
    Apart lexeme source [] := by
  cases spells with
  | integer => exact ⟨nofun, nofun⟩
  | decimal | name => exact nofun
  | text => trivial
  | punct p =>
    intro m begins
    rw [List.append_nil] at begins
    exact begins.length_le

/-- A text is written for one lexeme only. -/
theorem Spells.unique {lexeme lexeme' : Lexeme} {source : Text} (spells : Spells lexeme source)
    (spells' : Spells lexeme' source) : lexeme = lexeme' := by
  obtain ⟨shape, cut, read⟩ := split_of_spells spells spells.apart_nil
  obtain ⟨shape', cut', read'⟩ := split_of_spells spells' spells'.apart_nil
  obtain ⟨rfl, _⟩ := Piece.mk.inj (Option.some.inj (cut.symm.trans cut'))
  exact Except.ok.inj (read.symm.trans read')

/-- Tokens that are written alike say the same. -/
theorem lexemes_of_sources {ts ts' : List Token} (spells : ∀ t ∈ ts, Spells t.lexeme t.source)
    (spells' : ∀ t ∈ ts', Spells t.lexeme t.source) (same : ts.map source = ts'.map source) :
    ts.map lexeme = ts'.map lexeme := by
  induction ts generalizing ts' with
  | nil => rw [List.map_eq_nil_iff.1 same.symm]
  | cons t ts ih =>
    obtain ⟨t', more, rfl, written, others⟩ := List.map_eq_cons_iff.1 same.symm
    rw [List.forall_mem_cons] at spells spells'
    have first : t.lexeme = t'.lexeme := spells.1.unique (written ▸ spells'.1)
    rw [List.map_cons, List.map_cons, first, ih spells.2 spells'.2 others.symm]

end BranchGate.Token
