import BranchGate.Proofs.Mask.Tokens
import BranchGate.Scan.Words

/-! The word and method scans of a text that lexes, read off its tokens: words are the sources of
name tokens, and method calls are a dot, a name and an opening parenthesis in a row. -/
namespace BranchGate.Scan

section Words

variable {before x rest : Text}

theorem wordsFrom_skip (outside : ∀ c ∈ x, Text.isNameStart c = false) :
    wordsFrom before false (x ++ rest) = wordsFrom (x.reverse ++ before) false rest := by
  induction x generalizing before with
  | nil => rfl
  | cons c x ih =>
    obtain ⟨first, others⟩ := List.forall_mem_cons.1 outside
    simp [wordsFrom, first, ih others]

theorem wordsFrom_inside (inside : ∀ c ∈ x, Text.isNameChar c = true) :
    wordsFrom before true (x ++ rest) = wordsFrom (x.reverse ++ before) true rest := by
  induction x generalizing before with
  | nil => rfl
  | cons c x ih =>
    obtain ⟨first, others⟩ := List.forall_mem_cons.1 inside
    simp [wordsFrom, first, ih others]

theorem wordsFrom_leave (apart : ∀ c ∈ rest.head?, Text.isNameChar c = false) :
    wordsFrom before true rest = wordsFrom before false rest := by
  cases rest with
  | nil => rfl
  | cons c rest => simp [wordsFrom, apart c rfl]

theorem wordsFrom_word {n : Text} (named : Text.isName n = true)
    (apart : ∀ c ∈ rest.head?, Text.isNameChar c = false) :
    wordsFrom before false (n ++ rest) =
      ⟨n, before⟩ :: wordsFrom (n.reverse ++ before) false rest := by
  cases n with
  | nil => cases named
  | cons c tail =>
    simp only [Text.isName, Bool.and_eq_true, List.all_eq_true] at named
    have word := (Token.takeWhile_append_stop named.2 apart).1
    simp only [List.cons_append, wordsFrom, named.1, word, Bool.false_and, Bool.false_eq_true,
      ↓reduceIte]
    rw [wordsFrom_inside named.2, wordsFrom_leave apart]
    simp

end Words

/-- The name at the head of some lexemes when it is called there. -/
def calledName : List Lexeme → Option Text
  | .name n :: .punct .openParen :: _ => some n
  | _ => none

/-- The names called after a dot. -/
def calledIn : List Lexeme → List Text
  | [] => []
  | .punct .dot :: rest => (calledName rest).toList ++ calledIn rest
  | _ :: rest => calledIn rest

theorem calledName_eq_some {lexs : List Lexeme} {n : Text} :
    calledName lexs = some n ↔ [.name n, .punct .openParen] <+: lexs := by
  unfold calledName
  split
  next m more => simp [eq_comm]
  next other =>
    refine ⟨nofun, ?_⟩
    rintro ⟨more, rfl⟩
    exact absurd rfl (other n more)

theorem calledName?_blank {c : Char} (blank : Text.isBlank c = true) (rest : Text) :
    calledName? (c :: rest) = calledName? rest := by
  simp only [calledName?, List.dropWhile_cons_of_pos blank]

theorem calledName?_other {c : Char} (ink : Text.isBlank c = false)
    (other : Text.isNameStart c = false) (rest : Text) : calledName? (c :: rest) = none := by
  simp [calledName?, ink, other]

theorem calledName?_name {n rest : Text} (named : Text.isName n = true)
    (apart : ∀ c ∈ rest.head?, Text.isNameChar c = false) :
    calledName? (n ++ rest) =
      if (rest.dropWhile Text.isBlank).head? = some '(' then some n else none := by
  cases n with
  | nil => cases named
  | cons c tail =>
    simp only [Text.isName, Bool.and_eq_true, List.all_eq_true] at named
    have ink : ¬Text.isBlank c = true := by
      simp [Text.isBlank_of_isNameChar (Text.isNameChar_of_isNameStart named.1)]
    obtain ⟨word, after⟩ := Token.takeWhile_append_stop named.2 apart
    simp only [calledName?, List.cons_append, List.dropWhile_cons_of_neg ink,
      named.1, ↓reduceIte, word, after]
    cases rest.dropWhile Text.isBlank with
    | nil => rfl
    | cons d more => by_cases opens : d = '(' <;> simp [opens]

theorem calledNames_point (rest : Text) :
    calledNames ('.' :: rest) = (calledName? rest).toList ++ calledNames rest := rfl

theorem calledNames_skip {x : Text} (pointless : ∀ c ∈ x, c ≠ '.') (rest : Text) :
    calledNames (x ++ rest) = calledNames rest := by
  induction x with
  | nil => rfl
  | cons c x ih =>
    obtain ⟨first, others⟩ := List.forall_mem_cons.1 pointless
    simp [calledNames, first, ih others]

end BranchGate.Scan

namespace BranchGate.Token

/-- Tokens that are names. -/
def isNamed (t : Token) : Bool :=
  match t.lexeme with
  | .name _ => true
  | _ => false

theorem isNamed_eq_true {t : Token} : t.isNamed = true ↔ ∃ n, t.lexeme = .name n := by
  cases shape : t.lexeme <;> simp [isNamed, shape]

/-- Only names show letters to the scans, and only dots and decimals show points. -/
structure Shows (lexeme : Lexeme) (c : Char) : Prop where
  name : Text.isNameStart c = true → ∃ n, lexeme = .name n
  point : c = '.' → lexeme = .punct .dot ∨ ∃ x, lexeme = .decimal x

theorem shows_digit {lexeme : Lexeme} {d : Char} (digit : d.isDigit = true) : Shows lexeme d where
  name start := by
    rw [Text.isNameStart_of_isDigit digit] at start
    cases start
  point isPoint := by
    rw [isPoint] at digit
    cases digit

theorem shows_decimal (x : Binary64) : Shows (.decimal x) '.' := ⟨nofun, fun _ => .inr ⟨x, rfl⟩⟩

theorem Spells.mask_shows {lexeme : Lexeme} {source : Text} (spells : Spells lexeme source) :
    ∀ c ∈ mask source, Shows lexeme c := by
  intro c inside
  cases spells with
  | integer digits =>
    rw [(Spells.integer digits ‹_›).mask_code (by simp)] at inside
    exact shows_digit (digits.2 c inside)
  | decimal whole places =>
    rw [(Spells.decimal whole places).mask_code (by simp)] at inside
    rcases List.mem_append.1 inside with left | right
    · exact shows_digit (whole.2 c left)
    · rcases List.mem_cons.1 right with rfl | right
      · exact shows_decimal _
      · exact shows_digit (places.2 c right)
  | @text q body quoted =>
    have quote : Shows (.text (unescape body)) q.char := by cases q <;> exact ⟨nofun, nofun⟩
    rw [quoted.mask_string.1] at inside
    rcases List.mem_cons.1 inside with rfl | inside
    · exact quote
    · rcases List.mem_append.1 inside with space | closing
      · rw [List.eq_of_mem_replicate space]
        exact ⟨nofun, nofun⟩
      · rwa [List.mem_singleton.1 closing]
  | punct p =>
    rw [(Spells.punct p).mask_code (by simp)] at inside
    have all : p.text.all (fun c => !Text.isNameStart c && (c != '.' || p == .dot)) = true := by
      cases p <;> decide
    have plain := List.all_eq_true.1 all c inside
    simp only [Bool.and_eq_true, Bool.not_eq_true', Bool.or_eq_true, bne_iff_ne, beq_iff_eq]
      at plain
    refine ⟨fun start => ?_, fun isPoint => ?_⟩
    · rw [plain.1] at start
      cases start
    · rcases plain.2 with other | dot
      · exact absurd isPoint other
      · exact .inl (by rw [dot])
  | name named =>
    rw [(Spells.name named).mask_code (by simp)] at inside
    have inner := Text.isNameChar_of_mem named inside
    refine ⟨fun _ => ⟨source, rfl⟩, ?_⟩
    rintro rfl
    cases inner

theorem Spells.mask_unnamed {lexeme : Lexeme} {source : Text} (spells : Spells lexeme source)
    (other : ∀ n, lexeme ≠ .name n) : ∀ c ∈ mask source, Text.isNameStart c = false := by
  intro c inside
  refine eq_false_of_ne_true fun start => ?_
  obtain ⟨n, isName⟩ := (spells.mask_shows c inside).name start
  exact other n isName

theorem Spells.mask_pointless {lexeme : Lexeme} {source : Text} (spells : Spells lexeme source)
    (other : lexeme ≠ .punct .dot) (whole : ∀ x, lexeme ≠ .decimal x) :
    ∀ c ∈ mask source, c ≠ '.' := by
  intro c inside isPoint
  rcases (spells.mask_shows c inside).point isPoint with isDot | ⟨x, isDecimal⟩
  · exact other isDot
  · exact whole x isDecimal

theorem reverse_take_append {x y before : Text} {pos p : Nat} (late : pos + x.length ≤ p) :
    ((x ++ y).take (p - pos)).reverse ++ before =
      (y.take (p - (pos + x.length))).reverse ++ (x.reverse ++ before) := by
  rw [List.take_append, List.take_of_length_le (by omega), List.reverse_append,
    List.append_assoc, Nat.sub_sub]

/-- The scan sees a word for each name token, with the masked text before it. -/
theorem Lexed.wordsFrom {pos : Nat} {s : Text} {ts : List Token} (lexed : Lexed pos s ts)
    (before : Text) : Scan.wordsFrom before false (mask s) = (ts.filter isNamed).map fun t =>
      ⟨t.source, ((mask s).take (t.pos - pos)).reverse ++ before⟩ := by
  induction lexed generalizing before with
  | done => rfl
  | @layout pos c rest ts layout more ih =>
    have outside := Text.isNameChar_of_isLayout layout
    simp only [Text.isNameChar, Bool.or_eq_false_iff] at outside
    rw [mask_layout layout, ← List.singleton_append,
      Scan.wordsFrom_skip (by simpa using outside.1), ih]
    apply List.map_congr_left
    intro t member
    have late := (more.source_at t (List.mem_filter.1 member).1).1
    rw [reverse_take_append (x := [c]) late]
    rfl
  | @token pos lexeme source rest ts spells apart more ih =>
    have length := length_mask source
    -- The words after this token have its whole source before them.
    have others : (ts.filter isNamed).map (fun t => (⟨t.source,
        ((mask rest).take (t.pos - (pos + source.length))).reverse ++
          ((mask source).reverse ++ before)⟩ : Scan.Word)) =
        (ts.filter isNamed).map fun t =>
          ⟨t.source, ((mask source ++ mask rest).take (t.pos - pos)).reverse ++ before⟩ := by
      apply List.map_congr_left
      intro t member
      have late := (more.source_at t (List.mem_filter.1 member).1).1
      rw [reverse_take_append (by omega), length]
    rw [mask_append spells.closed]
    cases lexeme with
    | name n =>
      cases spells with
      | name named =>
        have masked : mask source = source := (Spells.name named).mask_code (by simp)
        rw [masked] at others ⊢
        rw [Scan.wordsFrom_word named (by rw [head?_maskFrom_code]; exact apart), ih, others]
        rw [List.filter_cons_of_pos rfl, List.map_cons, Nat.sub_self]
        rfl
    | integer | decimal | text | punct =>
      rw [Scan.wordsFrom_skip (spells.mask_unnamed (by simp)), ih, others]
      rfl

/-- Blanks aside, the masked text ends in a dot when the last token is one. -/
theorem Lexed.afterDot {pos : Nat} {s : Text} {ts : List Token} (lexed : Lexed pos s ts)
    (before : Text) : Scan.afterDot ((mask s).reverse ++ before) =
      (ts.getLast?.map fun t => t.lexeme == .punct .dot).getD (Scan.afterDot before) := by
  induction lexed generalizing before with
  | done => rfl
  | @layout pos c rest ts layout _ ih =>
    have blank : Scan.afterDot (c :: before) = Scan.afterDot before := by
      simp [Scan.afterDot, Text.isBlank_of_isLayout layout]
    rw [mask_layout layout, List.reverse_cons, List.append_assoc, List.singleton_append, ih, blank]
  | @token pos lexeme source rest ts spells _ _ ih =>
    rw [mask_append spells.closed, List.reverse_append, List.append_assoc, ih]
    cases ts with
    | nil =>
      obtain ⟨init, c, shown, ink, isDot⟩ := spells.mask_last
      have last : (c == '.') = (lexeme == .punct .dot) := by rw [Bool.eq_iff_iff]; simpa using isDot
      simp [Scan.afterDot, shown, ink, last]
    | cons t ts =>
      rw [List.getLast?_cons_cons, List.getLast?_eq_some_getLast (List.cons_ne_nil t ts)]
      rfl

/-- What the scan for words finds before a token is decided by the token before it. -/
theorem Lexed.afterDot_at {s : Text} {l r : List Token} {t : Token}
    (lexed : Lexed 0 s (l ++ t :: r)) : Scan.afterDot ((mask s).take t.pos).reverse =
      (l.getLast?.map fun u => u.lexeme == .punct .dot).getD false := by
  obtain ⟨a, b, rfl, stands, front, _⟩ := lexed.split
  rw [mask_append front.closed, stands, Nat.zero_add, List.take_left' (length_mask a),
    ← List.append_nil (mask a).reverse, front.afterDot []]
  rfl

theorem Lexed.opens {pos : Nat} {s : Text} {ts : List Token} (lexed : Lexed pos s ts) :
    ((mask s).dropWhile Text.isBlank).head? = some '(' ↔
      ts.head?.map lexeme = some (.punct .openParen) := by
  induction lexed with
  | done => simp [mask, maskFrom]
  | layout layout _ ih =>
    rw [mask_layout layout, List.dropWhile_cons_of_pos (Text.isBlank_of_isLayout layout)]
    exact ih
  | token spells _ _ _ =>
    obtain ⟨c, tail, shown, begins⟩ := spells.mask_first
    rw [mask_append spells.closed, shown]
    simp [begins.ink, begins.opens]

theorem Lexed.calledName {pos : Nat} {s : Text} {ts : List Token} (lexed : Lexed pos s ts) :
    Scan.calledName? (mask s) = Scan.calledName (ts.map lexeme) := by
  induction lexed with
  | done => rfl
  | layout layout _ ih =>
    rw [mask_layout layout, Scan.calledName?_blank (Text.isBlank_of_isLayout layout), ih]
  | @token pos lexeme source rest ts spells apart more _ =>
    rw [mask_append spells.closed]
    cases lexeme with
    | name n =>
      cases spells with
      | name named =>
        rw [(Spells.name named).mask_code (by simp),
          Scan.calledName?_name named (by rw [head?_maskFrom_code]; exact apart)]
        cases ts with
        | nil => simp [Scan.calledName, more.opens]
        | cons t ts =>
          by_cases opens : t.lexeme = .punct .openParen
          · simp [Scan.calledName, more.opens, opens]
          · simp [Scan.calledName, more.opens, opens]
    | integer | decimal | text | punct =>
      obtain ⟨c, tail, shown, begins⟩ := spells.mask_first
      have other : Text.isNameStart c = false := by simpa using begins.name
      rw [shown]
      exact Scan.calledName?_other begins.ink other _

theorem Lexed.calledNames {pos : Nat} {s : Text} {ts : List Token} (lexed : Lexed pos s ts) :
    Scan.calledNames (mask s) = Scan.calledIn (ts.map lexeme) := by
  induction lexed with
  | done => rfl
  | @layout _ c _ _ layout _ ih =>
    have other : ∀ d ∈ [c], d ≠ '.' := by
      intro d inside
      rw [List.mem_singleton.1 inside]
      rintro rfl
      cases layout
    rw [mask_layout layout, ← List.singleton_append, Scan.calledNames_skip other, ih]
  | @token pos lexeme source rest ts spells apart more ih =>
    rw [mask_append spells.closed]
    cases lexeme with
    | punct p =>
      by_cases isDot : p = .dot
      · subst isDot
        cases spells with
        | punct =>
          rw [(Spells.punct .dot).mask_code (by simp)]
          change Scan.calledNames ('.' :: mask rest) = _
          rw [Scan.calledNames_point, more.calledName, ih]
          rfl
      · rw [Scan.calledNames_skip (spells.mask_pointless (by simpa using isDot) (by simp)), ih]
        cases p <;> first | rfl | exact absurd rfl isDot
    | decimal x =>
      cases spells with
      | @decimal whole places digits digits' =>
        rw [(Spells.decimal digits digits').mask_code (by simp), List.append_assoc,
          List.cons_append, Scan.calledNames_skip digits.no_point, Scan.calledNames_point,
          Scan.calledNames_skip digits'.no_point, ih]
        obtain ⟨d, more, rfl, digit⟩ := digits'.cons
        have ink := Text.isBlank_of_isNameChar (Text.isNameChar_of_isDigit digit)
        rw [List.cons_append, Scan.calledName?_other ink (Text.isNameStart_of_isDigit digit)]
        rfl
    | integer | text | name =>
      rw [Scan.calledNames_skip (spells.mask_pointless (by simp) (by simp)), ih]
      rfl

end BranchGate.Token
