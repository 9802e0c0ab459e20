import BranchGate.Proofs.Token.Completeness
import BranchGate.Proofs.Token.Digits
import BranchGate.Proofs.Token.Layout
import Mathlib.Order.Bounds.Defs

/-! The lexer reads a text by longest match. Its tokens are set apart from what follows exactly
when no pattern matches more of the text there, so the marks may be tried in any order that puts
no prefix first; where it stops, no pattern matches. -/
namespace BranchGate.Token

/-- The texts that the patterns match: layout, numbers, strings, marks and names. -/
inductive Matched : Text → Prop
  | layout {x} : x ≠ [] → (∀ c ∈ x, Text.isLayout c = true) → Matched x
  | integer {ds} : IsDigits ds → Matched ds
  | decimal {whole places} : IsDigits whole → IsDigits places → Matched (whole ++ '.' :: places)
  | string {q body} : Quoted q body → Matched (q.char :: (body ++ [q.char]))
  | mark (p : Punct) : Matched p.text
  | name {n} : Text.isName n = true → Matched n

variable {lexeme : Lexeme} {source rest s x : Text}

theorem Spells.matched (spells : Spells lexeme source) : Matched source := by
  cases spells with
  | integer digits => exact .integer digits
  | decimal whole places => exact .decimal whole places
  | text quoted => exact .string quoted
  | punct p => exact .mark p
  | name named => exact .name named

theorem Matched.ne_nil (matched : Matched x) : x ≠ [] := by
  cases matched with
  | layout filled => exact filled
  | integer digits => exact digits.1
  | decimal => simp
  | string => simp
  | mark p => exact p.text_ne_nil
  | name named => rintro rfl; cases named

theorem IsDigits.append {ds more : Text} (digits : IsDigits ds)
    (others : ∀ d ∈ more, d.isDigit = true) : IsDigits (ds ++ more) :=
  ⟨List.append_ne_nil_of_left_ne_nil digits.1 more, List.forall_mem_append.2 ⟨digits.2, others⟩⟩

theorem isName_append {n more : Text} (named : Text.isName n = true)
    (inner : ∀ c ∈ more, Text.isNameChar c = true) : Text.isName (n ++ more) = true := by
  cases n with
  | nil => cases named
  | cons c tail =>
    simp only [Text.isName, Bool.and_eq_true, List.all_eq_true] at named
    simp only [List.cons_append, Text.isName, Bool.and_eq_true, List.all_eq_true]
    exact ⟨named.1, List.forall_mem_append.2 ⟨named.2, inner⟩⟩

theorem splitNumber_takes_digits {ds : Text} (digits : IsDigits ds) :
    ds.length ≤ (splitNumber (ds ++ rest)).1.length := by
  have taken : (ds ++ rest).takeWhile Char.isDigit = ds ++ rest.takeWhile Char.isDigit :=
    List.takeWhile_append_of_pos digits.2
  rcases splitNumber_source (ds ++ rest) with whole | ⟨places, decimal⟩
  · rw [whole, taken]
    simp
  · rw [decimal, taken]
    simp

theorem splitNumber_takes_places {whole places : Text} (digits : IsDigits whole)
    (digits' : IsDigits places) (rest : Text) : (whole ++ '.' :: places).length ≤
      (splitNumber (whole ++ '.' :: places ++ rest)).1.length := by
  have more : IsDigits (places ++ rest.takeWhile Char.isDigit) :=
    digits'.append (List.all_eq_true.1 List.all_takeWhile)
  have cut := splitNumber_decimal digits more (head_dropWhile (s := rest))
  have whole : whole ++ '.' :: (places ++ rest.takeWhile Char.isDigit) ++
      rest.dropWhile Char.isDigit = whole ++ '.' :: places ++ rest := by simp
  rw [whole] at cut
  rw [cut]
  simp

theorem split_number {ds : Text} (digits : IsDigits ds) : split (ds ++ rest) =
    some ⟨.number, (splitNumber (ds ++ rest)).1, (splitNumber (ds ++ rest)).2⟩ := by
  obtain ⟨d, tail, rfl, digit⟩ := digits.cons
  rw [List.cons_append]
  simp only [split, digit, ↓reduceIte]

theorem split_mark (p : Punct) : split (p.text ++ rest) = splitPunct (p.text ++ rest) := by
  obtain ⟨c, tail, shape⟩ := List.exists_cons_of_ne_nil p.text_ne_nil
  obtain ⟨_, _, _, outside, unquoted⟩ := Text.punct_char (p := p) (c := c) (by simp [shape])
  simp only [Text.isNameChar, Bool.or_eq_false_iff] at outside
  rw [shape, List.cons_append]
  simp only [split, outside.1, outside.2, unquoted, Bool.false_eq_true, ↓reduceIte]

theorem splitPunct_takes_mark (p : Punct) : ∃ piece, splitPunct (p.text ++ rest) = some piece ∧
    p.text.length ≤ piece.source.length := by
  have begins : p.text.isPrefixOf (p.text ++ rest) = true :=
    List.isPrefixOf_iff_prefix.2 (List.prefix_append _ _)
  cases cut : splitPunct (p.text ++ rest) with
  | none =>
    have misses := List.find?_eq_none.1 (Option.map_eq_none_iff.1 cut) p p.mem_all
    exact absurd begins misses
  | some piece =>
    obtain ⟨m, _, _, apart⟩ := punct_apart cut
    refine ⟨piece, rfl, apart p ?_⟩
    rw [(splitPunct_append cut).1]
    exact List.prefix_append _ _

/-- Where a pattern matches, layout apart, the lexer cuts off at least as much. -/
theorem Matched.cut (matched : Matched x) (ink : ∀ c ∈ x.head?, Text.isLayout c = false)
    (rest : Text) : ∃ piece, split (x ++ rest) = some piece ∧ x.length ≤ piece.source.length := by
  cases matched with
  | layout filled layout =>
    obtain ⟨c, tail, rfl⟩ := List.exists_cons_of_ne_nil filled
    cases (ink c rfl).symm.trans (layout c List.mem_cons_self)
  | integer digits => exact ⟨_, split_number digits, splitNumber_takes_digits digits⟩
  | decimal digits digits' =>
    have taken := splitNumber_takes_places digits digits' rest
    rw [List.append_assoc] at taken ⊢
    exact ⟨_, split_number digits, taken⟩
  | @string q body quoted =>
    have apart : Apart (.text (unescape body)) (q.char :: (body ++ [q.char])) rest := trivial
    obtain ⟨shape, cut, _⟩ := split_of_spells (.text quoted) apart
    exact ⟨_, cut, Nat.le_refl _⟩
  | mark p =>
    rw [split_mark]
    exact splitPunct_takes_mark p
  | name named =>
    have longer := isName_append named (List.all_eq_true.1 (List.all_takeWhile (l := rest)))
    obtain ⟨shape, cut, _⟩ := split_of_spells (.name longer) (head_dropWhile (s := rest))
    rw [List.append_assoc, List.takeWhile_append_dropWhile] at cut
    exact ⟨_, cut, by simp⟩

/-- A token with no pattern that matches more of the text where it stands. -/
structure LongestMatch (s : Text) (t : Token) : Prop where
  spells : Spells t.lexeme t.source
  stands : t.source <+: s.drop t.pos
  longest : ∀ x, Matched x → x <+: s.drop t.pos → x.length ≤ t.source.length

theorem longest_of_apart (spells : Spells lexeme source) (apart : Apart lexeme source rest)
    (matched : Matched x) (begins : x <+: source ++ rest) : x.length ≤ source.length := by
  obtain ⟨shape, cut, _⟩ := split_of_spells spells apart
  have ink : ∀ c ∈ x.head?, Text.isLayout c = false := by
    obtain ⟨c, tail, rfl⟩ := List.exists_cons_of_ne_nil spells.ne_nil
    obtain ⟨d, more, rfl⟩ := List.exists_cons_of_ne_nil matched.ne_nil
    obtain ⟨rfl, _⟩ := List.cons_prefix_cons.1 begins
    exact spells.not_layout
  obtain ⟨after, whole⟩ := begins
  obtain ⟨piece, cut', long⟩ := matched.cut ink after
  rw [whole] at cut'
  cases cut.symm.trans cut'
  exact long

theorem apart_of_longest (spells : Spells lexeme source)
    (longest : ∀ x, Matched x → x <+: source ++ rest → x.length ≤ source.length) :
    Apart lexeme source rest := by
  have ends {more after : Text} (follows : rest = more ++ after) (filled : more ≠ []) :
      ¬Matched (source ++ more) := by
    intro matched
    have short := longest _ matched (by simp [follows])
    have long := List.length_pos_iff.2 filled
    rw [List.length_append] at short
    omega
  have step {c : Char} (first : c ∈ rest.head?) : ¬Matched (source ++ [c]) := by
    obtain ⟨tail, follows⟩ := List.head?_eq_some_iff.1 first
    exact ends follows nofun
  have single {d : Char} (digit : d.isDigit = true) : ∀ c ∈ [d], c.isDigit = true := by
    simpa using digit
  cases spells with
  | integer digits =>
    constructor
    · intro d first
      exact eq_false_of_ne_true fun digit => step first (.integer (digits.append (single digit)))
    · intro d tail follows
      have follows : rest = ['.', d] ++ tail := follows
      refine eq_false_of_ne_true fun digit => ends follows nofun ?_
      exact .decimal digits ⟨nofun, single digit⟩
  | decimal whole places =>
    intro d first
    refine eq_false_of_ne_true fun digit => step first ?_
    rw [List.append_assoc, List.cons_append]
    exact .decimal whole (places.append (single digit))
  | text => trivial
  | punct p => exact fun m begins => longest _ (.mark m) begins
  | name named =>
    intro c first
    refine eq_false_of_ne_true fun inner => step first (.name (isName_append named ?_))
    simpa using inner

/-- The text is layout and the sources of the tokens in turn, each at its position. -/
inductive Parted : (pos : Nat) → Text → List Token → Prop
  | done {pos} : Parted pos [] []
  | layout {pos c rest ts} : Text.isLayout c = true → Parted (pos + 1) rest ts →
      Parted pos (c :: rest) ts
  | token {pos lexeme source rest ts} : Parted (pos + source.length) rest ts →
      Parted pos (source ++ rest) (⟨lexeme, source, pos⟩ :: ts)

/-- From a position on, the lexer takes layout and tokens off a text up to another position, where
the rest remains. -/
inductive Reads : (pos : Nat) → Text → List Token → (stop : Nat) → (rest : Text) → Prop
  | done {pos rest} : Reads pos rest [] pos rest
  | layout {pos c s ts stop rest} : Text.isLayout c = true → Reads (pos + 1) s ts stop rest →
      Reads pos (c :: s) ts stop rest
  | token {pos lexeme source s ts stop rest} : Spells lexeme source → Apart lexeme source s →
      Reads (pos + source.length) s ts stop rest →
      Reads pos (source ++ s) (⟨lexeme, source, pos⟩ :: ts) stop rest

variable {pos stop : Nat} {ts : List Token}

theorem reads_of_lexed (lexed : Lexed pos s ts) : Reads pos s ts (pos + s.length) [] := by
  induction lexed with
  | done => exact .done
  | layout layout _ ih =>
    rw [List.length_cons, Nat.add_comm _ 1, ← Nat.add_assoc]
    exact .layout layout ih
  | token spells apart _ ih =>
    rw [List.length_append, ← Nat.add_assoc]
    exact .token spells apart ih

/-- What is read parts the text before the rest, each token by the longest match. -/
theorem Reads.parted (reads : Reads pos s ts stop rest) (front : Text) (here : front.length = pos) :
    ∃ x, s = x ++ rest ∧ stop = pos + x.length ∧ Parted pos x ts ∧
      ∀ t ∈ ts, LongestMatch (front ++ s) t := by
  induction reads generalizing front with
  | done => exact ⟨[], rfl, rfl, .done, nofun⟩
  | @layout pos c s ts stop rest layout _ ih =>
    obtain ⟨x, rfl, reached, parted, maximal⟩ := ih (front ++ [c]) (by simp [here])
    rw [List.append_assoc] at maximal
    exact ⟨c :: x, rfl, by simp [reached]; omega, .layout layout parted, maximal⟩
  | @token pos lexeme source s ts stop rest spells apart _ ih =>
    obtain ⟨x, rfl, reached, parted, maximal⟩ := ih (front ++ source) (by simp [here])
    rw [List.append_assoc] at maximal
    refine ⟨source ++ x, by simp, by simp [reached]; omega, .token parted, ?_⟩
    refine List.forall_mem_cons.2 ⟨⟨spells, ?_, ?_⟩, maximal⟩
    · simp [← here]
    · rw [← here, List.drop_left]
      exact fun x matched begins => longest_of_apart spells apart matched begins

theorem reads_of_parted {x : Text} (parted : Parted pos x ts) (front rest : Text)
    (here : front.length = pos) (maximal : ∀ t ∈ ts, LongestMatch (front ++ (x ++ rest)) t) :
    Reads pos (x ++ rest) ts (pos + x.length) rest := by
  induction parted generalizing front with
  | done => exact .done
  | @layout pos c x ts layout _ ih =>
    have more := ih (front ++ [c]) (by simp [here]) (by simpa using maximal)
    rw [List.length_cons, Nat.add_comm _ 1, ← Nat.add_assoc]
    exact .layout layout more
  | @token pos lexeme source x ts _ ih =>
    obtain ⟨first, others⟩ := List.forall_mem_cons.1 maximal
    have more := ih (front ++ source) (by simp [here]) (by simpa using others)
    have longest := first.longest
    rw [← here, List.drop_left, List.append_assoc] at longest
    rw [List.length_append, ← Nat.add_assoc, List.append_assoc]
    exact .token first.spells (apart_of_longest first.spells longest) more

theorem lexFrom_token (spells : Spells lexeme source) (apart : Apart lexeme source rest) :
    lexFrom pos (source ++ rest) =
      (lexFrom (pos + source.length) rest).map (⟨lexeme, source, pos⟩ :: ·) := by
  obtain ⟨shape, cut, read⟩ := split_of_spells spells apart
  have ink := spells.not_layout
  obtain ⟨c, tail, rfl⟩ := List.exists_cons_of_ne_nil spells.ne_nil
  rw [List.cons_append] at cut ⊢
  rw [lexFrom]
  simp only [ink c rfl, Bool.false_eq_true, ↓reduceIte]
  split
  next piece same =>
    cases cut.symm.trans same
    simp only [read]
    cases lexFrom (pos + (c :: tail).length) rest <;> rfl
  next none => rw [cut] at none; cases none

/-- After what is read the lexer goes on with the rest as if it stood alone. -/
theorem Reads.lexFrom_eq (reads : Reads pos s ts stop rest) :
    lexFrom pos s = (lexFrom stop rest).map (ts ++ ·) := by
  induction reads with
  | @done pos rest => cases lexFrom pos rest <;> rfl
  | layout layout _ ih => rw [lexFrom]; simp [layout, ih]
  | @token pos lexeme source s ts stop rest spells apart _ ih =>
    rw [lexFrom_token spells apart, ih]
    cases lexFrom stop rest <;> rfl

theorem Reads.fails {cause : ReadError} (reads : Reads pos s ts stop rest)
    (fails : lexFrom pos s = .error cause) : lexFrom stop rest = .error cause := by
  rw [reads.lexFrom_eq] at fails
  cases result : lexFrom stop rest with
  | ok more => rw [result] at fails; cases fails
  | error other => rw [result] at fails; cases fails; rfl

/-- Only the number of digits keeps a token from being read. -/
theorem Piece.read_not_malformed {piece : Piece} {fault : SyntaxError} :
    piece.read ≠ .error (.malformed fault) := by
  intro failed
  unfold Piece.read at failed
  split at failed
  · unfold readNumber at failed
    split at failed
    · cases failed
    · unfold readDigits at failed
      split at failed <;> cases failed
  · cases failed
  · cases failed
  · cases failed

/-- How the lexer fails at a character. -/
def faultAt (c : Char) (p : Nat) : SyntaxError :=
  if (Quote.ofChar? c).isSome then .unterminatedString p else .unexpectedCharacter p

theorem faultAt_pos {c d : Char} {p q : Nat} (same : faultAt c p = faultAt d q) : p = q := by
  unfold faultAt at same
  split at same
  · split at same
    · exact SyntaxError.unterminatedString.inj same
    · cases same
  · split at same
    · cases same
    · exact SyntaxError.unexpectedCharacter.inj same

theorem faultAt_message (c : Char) (p : Nat) :
    (∃ q : Quote, c = q.char) ∧
        (faultAt c p).message = "unterminated string literal at position ".toList ++ Text.ofNat p ∨
      (∀ q : Quote, c ≠ q.char) ∧
        (faultAt c p).message = "unexpected character at position ".toList ++ Text.ofNat p := by
  unfold faultAt
  cases known : Quote.ofChar? c with
  | some q => exact .inl ⟨⟨q, Quote.ofChar?_eq_some.1 known⟩, rfl⟩
  | none =>
    refine .inr ⟨?_, rfl⟩
    rintro q rfl
    rw [Quote.ofChar?_char] at known
    cases known

/-- Where the lexer stops, no pattern matches. -/
theorem lexFrom_stops {fault : SyntaxError} (stops : lexFrom pos s = .error (.malformed fault)) :
    ∃ ts p c rest, Reads pos s ts p (c :: rest) ∧ (∀ x, Matched x → ¬x <+: c :: rest) ∧
      fault = faultAt c p := by
  fun_induction lexFrom pos s with
  | case1 => cases stops
  | case2 pos c s layout ih =>
    obtain ⟨ts, p, d, rest, reads, stuck⟩ := ih stops
    exact ⟨ts, p, d, rest, .layout layout reads, stuck⟩
  | case3 => cases stops
  | case4 pos c s ink piece cut lexeme read cause following ih =>
    cases stops
    obtain ⟨spells, apart⟩ := split_spells cut read
    obtain ⟨ts, p, d, rest, reads, stuck⟩ := ih following
    rw [← (split_append cut).1]
    exact ⟨_, p, d, rest, .token spells apart reads, stuck⟩
  | case5 pos c s ink piece cut cause unread =>
    cases stops
    exact absurd unread piece.read_not_malformed
  | case6 pos c s ink cut =>
    cases stops
    refine ⟨[], pos, c, s, .done, ?_, rfl⟩
    rintro x matched ⟨after, whole⟩
    have first : ∀ d ∈ x.head?, Text.isLayout d = false := by
      obtain ⟨d, more, rfl⟩ := List.exists_cons_of_ne_nil matched.ne_nil
      obtain ⟨rfl, _⟩ := List.cons.inj whole
      simpa using ink
    obtain ⟨piece, cut', _⟩ := matched.cut first after
    rw [whole, cut] at cut'
    cases cut'

theorem Reads.stuck (reads : Reads pos s ts stop rest) (stuck : ∀ x, Matched x → ¬x <+: s) :
    stop = pos := by
  cases reads with
  | done => rfl
  | @layout _ c s _ _ _ layout =>
    have blank : Matched [c] := .layout nofun (by simpa using layout)
    exact absurd (List.prefix_append [c] s) (stuck [c] blank)
  | token spells => exact absurd (List.prefix_append _ _) (stuck _ spells.matched)

/-- Up to the position the text is read by longest match, and there no pattern matches. -/
def StuckAt (s : Text) (p : Nat) : Prop :=
  (∃ ts, Parted 0 (s.take p) ts ∧ ∀ t ∈ ts, LongestMatch s t) ∧ ∀ x, Matched x → ¬x <+: s.drop p

theorem isLeast_stuckAt {fault : SyntaxError} (stops : lex s = .error (.malformed fault)) :
    ∃ p c, s[p]? = some c ∧ IsLeast { p | StuckAt s p } p ∧ fault = faultAt c p := by
  obtain ⟨ts, p, c, rest, reads, stuck, known⟩ := lexFrom_stops stops
  obtain ⟨x, rfl, rfl, parted, maximal⟩ := reads.parted [] rfl
  rw [Nat.zero_add] at known
  refine ⟨x.length, c, by simp, ⟨⟨⟨ts, ?_, maximal⟩, ?_⟩, ?_⟩, known⟩
  · rwa [List.take_left]
  · rwa [List.drop_left]
  · rintro q ⟨⟨ts', parted', maximal'⟩, stuck'⟩
    -- Read up to `q`, the text leaves the lexer to fail right there, and it fails only once.
    have reads' := reads_of_parted parted' [] ((x ++ c :: rest).drop q) rfl
      (by rwa [List.take_append_drop])
    rw [List.take_append_drop] at reads'
    obtain ⟨_, p, d, _, ahead, _, known'⟩ := lexFrom_stops (reads'.fails stops)
    have here := ahead.stuck stuck'
    have same := faultAt_pos (known.symm.trans known')
    rw [List.length_take] at here
    omega

/-- Texts one after the other with layout between neighbours. -/
inductive Spaced : List Text → Text → Prop
  | nil : Spaced [] []
  | single (a) : Spaced [a] a
  | cons {a b more g joined} : g ≠ [] → (∀ c ∈ g, Text.isLayout c = true) →
      Spaced (b :: more) joined → Spaced (a :: b :: more) (a ++ (g ++ joined))

/-- Set apart by layout, tokens keep their lexemes. -/
theorem laid_of_spaced {joined : Text} (spells : ∀ t ∈ ts, Spells t.lexeme t.source)
    (spaced : Spaced (ts.map Token.source) joined) : Laid joined (ts.map Token.lexeme) := by
  generalize sources : ts.map Token.source = texts at spaced
  induction spaced generalizing ts with
  | nil =>
    rw [List.map_eq_nil_iff.1 sources]
    exact .nil
  | single a =>
    obtain ⟨t, _, rfl, rfl, none⟩ := List.map_eq_cons_iff.1 sources
    rw [List.map_eq_nil_iff.1 none, ← List.append_nil t.source]
    have written := spells t List.mem_cons_self
    exact Laid.nil.token written written.apart_nil
  | cons filled layout _ ih =>
    obtain ⟨t, ts, rfl, rfl, others⟩ := List.map_eq_cons_iff.1 sources
    obtain ⟨written, spells⟩ := List.forall_mem_cons.1 spells
    obtain ⟨c, gap, rfl⟩ := List.exists_cons_of_ne_nil filled
    have clear {rest : Text} : Clear (c :: rest) := clear_layout (layout c List.mem_cons_self)
    exact ((ih spells others).layout layout).token written (clear.apart written)

/-- No run of digits is too long to be read. -/
def ShortRuns (s : Text) : Prop :=
  ∀ ds, ds <:+: s → (∀ d ∈ ds, d.isDigit = true) → ds.length ≤ digitLimit

/-- The lexer parts every text by longest match, up to its end or to the first position where no
pattern matches. Layout of any kind may stand between the tokens. -/
theorem lex_longest_match (short : ShortRuns s) :
    (∀ ts, lex s = .ok ts → Parted 0 s ts ∧ (∀ t ∈ ts, LongestMatch s t) ∧
      ∀ joined, Spaced (ts.map Token.source) joined →
        ∃ ts', lex joined = .ok ts' ∧ ts'.map Token.lexeme = ts.map Token.lexeme) ∧
    ∀ cause, lex s = .error cause → ∃ p c fault, s[p]? = some c ∧
      IsLeast { p | StuckAt s p } p ∧ cause = .malformed fault ∧
      ((∃ q : Quote, c = q.char) ∧
          fault.message = "unterminated string literal at position ".toList ++ Text.ofNat p ∨
        (∀ q : Quote, c ≠ q.char) ∧
          fault.message = "unexpected character at position ".toList ++ Text.ofNat p) := by
  constructor
  · intro ts lexed
    have laid := lexed_of_lex lexed
    obtain ⟨x, whole, _, parted, maximal⟩ := (reads_of_lexed laid).parted [] rfl
    rw [List.append_nil] at whole
    subst whole
    refine ⟨parted, maximal, fun joined spaced => ?_⟩
    obtain ⟨ts', same, laid'⟩ := laid_of_spaced laid.spells spaced 0
    exact ⟨ts', lex_eq_ok.2 laid', same⟩
  · intro cause stops
    cases cause with
    | tooManyDigits count =>
      obtain ⟨a, ds, b, rfl, _, digits, beyond⟩ := lexFrom_tooManyDigits stops
      have within := short ds ⟨a, b, by simp⟩ digits
      omega
    | malformed fault =>
      obtain ⟨p, c, stands, least, rfl⟩ := isLeast_stuckAt stops
      exact ⟨p, c, _, stands, least, rfl, faultAt_message c p⟩

theorem shortRuns_of_length (short : s.length ≤ digitLimit) : ShortRuns s :=
  fun _ inside _ => Nat.le_trans inside.length_le short

/-- A decimal is not split at its point, nor is a mark after its first characters. -/
theorem lex_longest_match_equals :
    (∃ ts, lex ("1.5!==x" : String).toList = .ok ts ∧
      ts.map Token.source = [['1', '.', '5'], ['!', '=', '='], ['x']] ∧
      (∀ t ∈ ts, LongestMatch ("1.5!==x" : String).toList t) ∧
      ∃ ts', lex ("1.5 !==\r\nx" : String).toList = .ok ts' ∧
        ts'.map Token.lexeme = ts.map Token.lexeme) ∧
    IsLeast { p | StuckAt ("x===@" : String).toList p } 4 := by
  have lexed : lex ("1.5!==x" : String).toList = .ok [
      ⟨.decimal (Binary64.ofDecimal false 15 (-1)), ['1', '.', '5'], 0⟩,
      ⟨.punct .strictNe, ['!', '=', '='], 3⟩, ⟨.name ['x'], ['x'], 6⟩] :=
    eq_ok_of_toOption (by decide +kernel)
  have spaced : Spaced [['1', '.', '5'], ['!', '=', '='], ['x']]
      ("1.5 !==\r\nx" : String).toList :=
    .cons (a := ['1', '.', '5']) (g := [' ']) nofun (by simp [Text.isLayout])
      (.cons (a := ['!', '=', '=']) (g := ['\r', '\n']) nofun (by simp [Text.isLayout])
        (.single ['x']))
  have stops : lex ("x===@" : String).toList = .error (.malformed (.unexpectedCharacter 4)) := by
    decide +kernel
  obtain ⟨_, maximal, joins⟩ := (lex_longest_match (shortRuns_of_length (by decide))).1 _ lexed
  obtain ⟨p, c, fault, stands, least, known, told⟩ :=
    (lex_longest_match (shortRuns_of_length (by decide))).2 _ stops
  refine ⟨⟨_, lexed, rfl, maximal, joins _ spaced⟩, ?_⟩
  cases known
  rcases told with ⟨⟨q, rfl⟩, _⟩ | ⟨_, same⟩
  · have inside := List.mem_of_getElem? stands
    cases q <;> simp [Quote.char] at inside
  · have digits : Text.ofNat 4 = Text.ofNat p := List.append_cancel_left same
    have four := congrArg Text.toNat digits
    rw [Text.toNat_ofNat, Text.toNat_ofNat] at four
    rwa [← four] at least

end BranchGate.Token
