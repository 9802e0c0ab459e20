import BranchGate.Proofs.Outcome
import BranchGate.Proofs.Text.Classes
import BranchGate.Token.Lexer

/-! Lexed texts as a relation: layout and tokens in turn, each token spelled as its lexeme
prescribes and set apart from the text after it. The lexer answers only with such tokens. -/
namespace BranchGate.Token

/-- The inside of a string: no bare quote of its kind, and no backslash without a character
after it. -/
inductive Quoted (q : Quote) : Text → Prop
  | nil : Quoted q []
  | plain {c body} : c ≠ q.char → c ≠ '\\' → Quoted q body → Quoted q (c :: body)
  | escape {c body} : c ≠ '\n' → Quoted q body → Quoted q ('\\' :: c :: body)

/-- A run of digits that is not empty. -/
def IsDigits (ds : Text) : Prop := ds ≠ [] ∧ ∀ d ∈ ds, d.isDigit = true

/-- The texts that a lexeme is written as. -/
inductive Spells : Lexeme → Text → Prop
  | integer {ds} : IsDigits ds → ds.length ≤ digitLimit → Spells (.integer (Text.toNat ds)) ds
  | decimal {whole places} : IsDigits whole → IsDigits places →
      Spells (.decimal (Binary64.ofDecimal false (Text.toNat (whole ++ places))
        (-(places.length : Int)))) (whole ++ '.' :: places)
  | text {q body} : Quoted q body → Spells (.text (unescape body)) (q.char :: (body ++ [q.char]))
  | punct (p) : Spells (.punct p) p.text
  | name {n} : Text.isName n = true → Spells (.name n) n

/-- The text after a token does not prolong it. -/
def Apart : Lexeme → (source rest : Text) → Prop
  | .integer _, _, rest => (∀ d ∈ rest.head?, d.isDigit = false) ∧
      ∀ d tail, rest = '.' :: d :: tail → d.isDigit = false
  | .decimal _, _, rest => ∀ d ∈ rest.head?, d.isDigit = false
  | .text _, _, _ => True
  | .punct _, source, rest => ∀ m : Punct, m.text <+: source ++ rest →
      m.text.length ≤ source.length
  | .name _, _, rest => ∀ c ∈ rest.head?, Text.isNameChar c = false

/-- A text, from a position on, with its tokens. -/
inductive Lexed : (pos : Nat) → Text → List Token → Prop
  | done {pos} : Lexed pos [] []
  | layout {pos c rest ts} : Text.isLayout c = true → Lexed (pos + 1) rest ts →
      Lexed pos (c :: rest) ts
  | token {pos lexeme source rest ts} : Spells lexeme source → Apart lexeme source rest →
      Lexed (pos + source.length) rest ts →
      Lexed pos (source ++ rest) (⟨lexeme, source, pos⟩ :: ts)

theorem head_dropWhile {p : Char → Bool} {s : Text} :
    ∀ c ∈ (s.dropWhile p).head?, p c = false := by
  intro c member
  have head := List.head?_dropWhile_not p s
  rw [Option.mem_def.1 member] at head
  simpa using head

theorem takeWhile_append_stop {p : Char → Bool} {x rest : Text} (inside : ∀ c ∈ x, p c = true)
    (apart : ∀ c ∈ rest.head?, p c = false) :
    (x ++ rest).takeWhile p = x ∧ (x ++ rest).dropWhile p = rest := by
  rw [List.takeWhile_append_of_pos inside, List.dropWhile_append_of_pos inside]
  cases rest with
  | nil => simp
  | cons c rest => simp [apart c rfl]

theorem isDigits_takeWhile {c : Char} {rest : Text} (digit : c.isDigit = true) :
    IsDigits ((c :: rest).takeWhile Char.isDigit) := by
  refine ⟨by simp [digit], ?_⟩
  intro d member
  exact List.all_eq_true.1 List.all_takeWhile d member

theorem IsDigits.cons {ds : Text} (digits : IsDigits ds) :
    ∃ d rest, ds = d :: rest ∧ d.isDigit = true := by
  cases ds with
  | nil => exact absurd rfl digits.1
  | cons d rest => exact ⟨d, rest, rfl, digits.2 d List.mem_cons_self⟩

theorem IsDigits.concat {ds : Text} (digits : IsDigits ds) :
    ∃ rest d, ds = rest ++ [d] ∧ d.isDigit = true := by
  refine ⟨ds.dropLast, ds.getLast digits.1, (List.dropLast_concat_getLast digits.1).symm, ?_⟩
  exact digits.2 _ (List.getLast_mem digits.1)

theorem IsDigits.no_point {ds : Text} (digits : IsDigits ds) : ∀ d ∈ ds, d ≠ '.' := by
  rintro d member rfl
  cases digits.2 _ member

theorem readNumber_whole {ds : Text} (digits : IsDigits ds) :
    readNumber ds = (readDigits ds).map .integer := by
  have none : ds.contains '.' = false := by
    rw [List.contains_eq_mem, decide_eq_false_iff_not]
    exact fun member => digits.no_point _ member rfl
  unfold readNumber
  rw [none]
  rfl

theorem readNumber_decimal {whole places : Text} (digits : IsDigits whole) :
    readNumber (whole ++ '.' :: places) =
      .ok (.decimal (Binary64.ofDecimal false (Text.toNat (whole ++ places))
        (-(places.length : Int)))) := by
  have point : ∀ d ∈ whole, (d != '.') = true := by simpa using digits.no_point
  simp [readNumber, List.takeWhile_append_of_pos point, List.dropWhile_append_of_pos point]

theorem readDigits_eq_ok {ds : Text} {n : Nat} (read : readDigits ds = .ok n) :
    ds.length ≤ digitLimit ∧ n = Text.toNat ds := by
  unfold readDigits at read
  split at read
  · cases read
  · cases read; exact ⟨by omega, rfl⟩

/-- A whole number ends before a point that no digit follows. -/
theorem whole_spells {ds after : Text} {lexeme : Lexeme} (digits : IsDigits ds)
    (read : readNumber ds = .ok lexeme) (stop : ∀ d ∈ after.head?, d.isDigit = false)
    (noPoint : ∀ d tail, after = '.' :: d :: tail → d.isDigit = false) :
    Spells lexeme ds ∧ Apart lexeme ds after := by
  rw [readNumber_whole digits] at read
  obtain ⟨n, hn, rfl⟩ := map_eq_ok.1 read
  obtain ⟨bound, rfl⟩ := readDigits_eq_ok hn
  exact ⟨.integer digits bound, stop, noPoint⟩

theorem number_spells {c : Char} {rest source after : Text} {lexeme : Lexeme}
    (digit : c.isDigit = true) (cut : splitNumber (c :: rest) = (source, after))
    (read : readNumber source = .ok lexeme) :
    Spells lexeme source ∧ Apart lexeme source after := by
  have digits : IsDigits ((c :: rest).takeWhile Char.isDigit) := isDigits_takeWhile digit
  have stop := head_dropWhile (p := Char.isDigit) (s := c :: rest)
  unfold splitNumber at cut
  split at cut
  next d tail shape =>
    split at cut
    next inner =>
      obtain ⟨rfl, rfl⟩ := Prod.mk.inj cut
      have places : IsDigits ((d :: tail).takeWhile Char.isDigit) := isDigits_takeWhile inner
      rw [List.takeWhile_cons_of_pos inner] at places
      rw [readNumber_decimal digits] at read
      cases read
      exact ⟨.decimal digits places, head_dropWhile⟩
    next outer =>
      obtain ⟨rfl, rfl⟩ := Prod.mk.inj cut
      refine whole_spells digits read (by simp) ?_
      rintro _ _ ⟨⟩
      exact eq_false_of_ne_true outer
  next other shape =>
    obtain ⟨rfl, rfl⟩ := Prod.mk.inj cut
    refine whole_spells digits read stop ?_
    rintro d tail equal
    exact absurd equal (shape d tail)

theorem string_spells {q : Quote} {s body after : Text}
    (cut : splitString q s = some (body, after)) :
    ∃ inside, body = inside ++ [q.char] ∧ Quoted q inside := by
  fun_induction splitString q s generalizing body after with
  | case1 => cases cut
  | case2 => cases cut
  | case3 c rest feed ih =>
    obtain ⟨⟨b, a⟩, hb, he⟩ := Option.map_eq_some_iff.1 cut
    obtain ⟨rfl, rfl⟩ := Prod.mk.inj he
    obtain ⟨inside, rfl, quoted⟩ := ih hb
    exact ⟨'\\' :: c :: inside, rfl, .escape feed quoted⟩
  | case4 => cases cut; exact ⟨[], rfl, .nil⟩
  | case5 => cases cut
  | case6 c rest _ bare slash ih =>
    obtain ⟨⟨b, a⟩, hb, he⟩ := Option.map_eq_some_iff.1 cut
    obtain ⟨rfl, rfl⟩ := Prod.mk.inj he
    obtain ⟨inside, rfl, quoted⟩ := ih hb
    exact ⟨c :: inside, rfl, .plain bare slash quoted⟩

/-- No mark begins a later one of the list, so the first that fits is the longest. -/
theorem punct_order : Punct.all.Pairwise fun a b => ¬a.text <+: b.text := by decide

theorem punct_apart {s : Text} {piece : Piece} (cut : splitPunct s = some piece) :
    ∃ p, piece.shape = .punct p ∧ piece.source = p.text ∧
      Apart (.punct p) piece.source piece.rest := by
  obtain ⟨p, found, rfl⟩ := Option.map_eq_some_iff.1 cut
  refine ⟨p, rfl, rfl, ?_⟩
  obtain ⟨fits, before, after, order, earlier⟩ := List.find?_eq_some_iff_append.1 found
  obtain ⟨rest, rfl⟩ := List.isPrefixOf_iff_prefix.1 fits
  intro m begins
  rw [List.drop_left] at begins
  have listed := Punct.mem_all m
  rw [order, List.mem_append, List.mem_cons] at listed
  rcases listed with sooner | rfl | later
  · have misses := earlier m sooner
    rw [List.isPrefixOf_iff_prefix.2 begins] at misses
    cases misses
  · exact Nat.le_refl _
  · refine Nat.le_of_not_lt fun longer => ?_
    have inner := List.prefix_of_prefix_length_le (List.prefix_append p.text rest) begins
      (Nat.le_of_lt longer)
    have pairs := punct_order
    rw [order, List.pairwise_append, List.pairwise_cons] at pairs
    exact pairs.2.1.1 m later inner

theorem unescape_plain {body : Text} (plain : '\\' ∉ body) : unescape body = body := by
  induction body with
  | nil => rfl
  | cons c rest ih =>
    rw [List.mem_cons, not_or] at plain
    rw [unescape, ih plain.2]
    rintro d tail rfl
    exact fun _ => plain.1 rfl

theorem split_spells {s : Text} {piece : Piece} {lexeme : Lexeme} (cut : split s = some piece)
    (read : piece.read = .ok lexeme) :
    Spells lexeme piece.source ∧ Apart lexeme piece.source piece.rest := by
  cases s with
  | nil => cases cut
  | cons c rest =>
    simp only [split] at cut
    split at cut
    next digit =>
      cases cut
      exact number_spells digit rfl read
    next =>
      split at cut
      next start =>
        cases cut
        cases read
        refine ⟨.name ?_, head_dropWhile⟩
        simp [Text.isName, start]
      next =>
        split at cut
        next q known =>
          obtain ⟨⟨body, after⟩, found, rfl⟩ := Option.map_eq_some_iff.1 cut
          obtain ⟨inside, rfl, quoted⟩ := string_spells found
          cases read
          rw [Quote.ofChar?_eq_some.1 known]
          exact ⟨by simpa using Spells.text quoted, trivial⟩
        next =>
          obtain ⟨p, shape, source, apart⟩ := punct_apart cut
          rw [Piece.read, shape] at read
          cases read
          exact ⟨source ▸ .punct p, apart⟩

theorem lexed_of_lexFrom {pos : Nat} {s : Text} {ts : List Token}
    (lexed : lexFrom pos s = .ok ts) : Lexed pos s ts := by
  fun_induction lexFrom pos s generalizing ts with
  | case1 => cases lexed; exact .done
  | case2 pos c rest layout ih => exact .layout layout (ih lexed)
  | case3 pos c rest ink piece cut lexeme read more following ih =>
    cases lexed
    obtain ⟨spells, apart⟩ := split_spells cut read
    rw [← (split_append cut).1]
    exact .token spells apart (ih following)
  | case4 => cases lexed
  | case5 => cases lexed
  | case6 => cases lexed

theorem lexed_of_lex {s : Text} {ts : List Token} (lexed : lex s = .ok ts) : Lexed 0 s ts :=
  lexed_of_lexFrom lexed

theorem Spells.ne_nil {lexeme : Lexeme} {source : Text} (spells : Spells lexeme source) :
    source ≠ [] := by
  cases spells with
  | integer digits => exact digits.1
  | decimal => simp
  | text => simp
  | punct p => exact Punct.text_ne_nil p
  | name named => rintro rfl; cases named

theorem Spells.punct_source {p : Punct} {source : Text} (spells : Spells (.punct p) source) :
    source = p.text := by
  cases spells
  rfl

theorem Spells.name_source {n source : Text} (spells : Spells (.name n) source) :
    source = n ∧ Text.isName n = true := by
  cases spells with
  | name named => exact ⟨rfl, named⟩

theorem Spells.text_source {data source : Text} (spells : Spells (.text data) source) :
    ∃ q body, source = q.char :: (body ++ [q.char]) ∧ Quoted q body ∧ data = unescape body := by
  cases spells with
  | text quoted => exact ⟨_, _, rfl, quoted, rfl⟩

/-- Only strings are written with quotes. -/
theorem Spells.string_or_code {lexeme : Lexeme} {source : Text} (spells : Spells lexeme source) :
    (∃ q body, lexeme = .text (unescape body) ∧ source = q.char :: (body ++ [q.char]) ∧
      Quoted q body) ∨
    (∀ data, lexeme ≠ .text data) ∧ ∀ c ∈ source, Quote.ofChar? c = none := by
  cases spells with
  | text quoted => exact .inl ⟨_, _, rfl, rfl, quoted⟩
  | integer digits =>
    refine .inr ⟨by simp, fun c inside => ?_⟩
    exact Text.ofChar?_of_isNameChar (Text.isNameChar_of_isDigit (digits.2 c inside))
  | decimal whole places =>
    refine .inr ⟨by simp, fun c inside => ?_⟩
    rcases List.mem_append.1 inside with before | after
    · exact Text.ofChar?_of_isNameChar (Text.isNameChar_of_isDigit (whole.2 c before))
    · rcases List.mem_cons.1 after with rfl | after
      · rfl
      · exact Text.ofChar?_of_isNameChar (Text.isNameChar_of_isDigit (places.2 c after))
  | punct p => exact .inr ⟨by simp, fun c inside => (Text.punct_char inside).2.2.2.2⟩
  | name named =>
    refine .inr ⟨by simp, fun c inside => ?_⟩
    exact Text.ofChar?_of_isNameChar (Text.isNameChar_of_mem named inside)

theorem Lexed.spells {pos : Nat} {s : Text} {ts : List Token} (lexed : Lexed pos s ts) :
    ∀ t ∈ ts, Spells t.lexeme t.source := by
  induction lexed with
  | done => intro t member; cases member
  | layout _ _ ih => exact ih
  | token spells _ _ ih =>
    intro t member
    rcases List.mem_cons.1 member with rfl | member
    · exact spells
    · exact ih t member

/-- Tokens stand at their positions. -/
theorem Lexed.source_at {pos : Nat} {s : Text} {ts : List Token} (lexed : Lexed pos s ts) :
    ∀ t ∈ ts, pos ≤ t.pos ∧ t.source <+: s.drop (t.pos - pos) := by
  induction lexed with
  | done => intro t member; cases member
  | @layout pos _ _ _ _ _ ih =>
    intro t member
    obtain ⟨late, stands⟩ := ih t member
    refine ⟨by omega, ?_⟩
    rwa [show t.pos - pos = t.pos - (pos + 1) + 1 by omega, List.drop_succ_cons]
  | @token pos _ source rest ts _ _ _ ih =>
    intro t member
    rcases List.mem_cons.1 member with rfl | member
    · exact ⟨Nat.le_refl _, by simp⟩
    · obtain ⟨late, stands⟩ := ih t member
      refine ⟨by omega, ?_⟩
      rwa [show t.pos - pos = source.length + (t.pos - (pos + source.length)) by omega,
        ← List.drop_drop, List.drop_left]

theorem Apart.shorten {lexeme : Lexeme} {source a b : Text}
    (apart : Apart lexeme source (a ++ b)) : Apart lexeme source a := by
  cases a with
  | nil =>
    cases lexeme with
    | integer => exact ⟨nofun, nofun⟩
    | decimal | name => exact nofun
    | text => trivial
    | punct =>
      intro m begins
      simpa using begins.length_le
  | cons c rest =>
    cases lexeme with
    | integer =>
      refine ⟨apart.1, ?_⟩
      rintro d tail equal
      obtain ⟨rfl, rfl⟩ := List.cons.inj equal
      exact apart.2 d (tail ++ b) rfl
    | decimal | name => exact apart
    | text => trivial
    | punct =>
      intro m begins
      refine apart m (begins.trans ?_)
      rw [← List.append_assoc]
      exact List.prefix_append _ b

/-- A text cut around one of its tokens; layout before the token goes to what is before. -/
theorem Lexed.split {pos : Nat} {s : Text} {l r : List Token} {t : Token}
    (lexed : Lexed pos s (l ++ t :: r)) : ∃ a b, s = a ++ (t.source ++ b) ∧
      t.pos = pos + a.length ∧ Lexed pos a l ∧ Spells t.lexeme t.source ∧
      Apart t.lexeme t.source b ∧ Lexed (t.pos + t.source.length) b r := by
  generalize whole : l ++ t :: r = ts at lexed
  induction lexed generalizing l with
  | done => simp at whole
  | @layout pos c rest ts layout _ ih =>
    obtain ⟨a, b, rfl, stands, before, spells, apart, after⟩ := ih whole
    refine ⟨c :: a, b, rfl, ?_, .layout layout before, spells, apart, after⟩
    rw [stands, List.length_cons]
    omega
  | @token pos lexeme source rest ts spells apart more ih =>
    cases l with
    | nil =>
      obtain ⟨rfl, rfl⟩ := List.cons.inj whole
      exact ⟨[], rest, rfl, rfl, .done, spells, apart, more⟩
    | cons first l =>
      obtain ⟨rfl, same⟩ := List.cons.inj whole
      obtain ⟨a, b, rfl, stands, before, spells', apart', after⟩ := ih same
      refine ⟨source ++ a, b, by simp, ?_, .token spells apart.shorten before, spells', apart',
        after⟩
      rw [stands, List.length_append]
      omega

theorem Lexed.layout_of_nil {pos : Nat} {s : Text} (lexed : Lexed pos s []) :
    ∀ c ∈ s, Text.isLayout c = true := by
  generalize none : [] = ts at lexed
  induction lexed with
  | done => simp
  | layout layout _ ih => exact List.forall_mem_cons.2 ⟨layout, ih none⟩
  | token => cases none

end BranchGate.Token
