import BranchGate.SyntaxError

/-! Splitting a text into tokens. At each position at most one class of tokens can begin, and
the longest token of that class is taken; layout between tokens is dropped. -/
namespace BranchGate.Token

inductive Shape
  | number
  | string
  | punct (p : Punct)
  | name
  deriving DecidableEq, Repr

/-- A token cut off the head of a text. -/
structure Piece where
  shape : Shape
  source : Text
  rest : Text
  deriving DecidableEq, Repr

/-- Digits, and a point with digits after it. -/
def splitNumber (s : Text) : Text × Text :=
  let whole := s.takeWhile Char.isDigit
  match s.dropWhile Char.isDigit with
  | '.' :: d :: rest =>
    if d.isDigit then
      (whole ++ '.' :: d :: rest.takeWhile Char.isDigit, rest.dropWhile Char.isDigit)
    else (whole, '.' :: d :: rest)
  | rest => (whole, rest)

/-- The part of a string up to its closing quote, that quote included. A backslash takes the
next character with it, which may not be a line feed. -/
def splitString (q : Quote) : Text → Option (Text × Text)
  | [] => none
  | '\\' :: c :: rest =>
    if c = '\n' then none
    else (splitString q rest).map fun (body, after) => ('\\' :: c :: body, after)
  | c :: rest =>
    if c = q.char then some ([c], rest)
    else if c = '\\' then none
    else (splitString q rest).map fun (body, after) => (c :: body, after)

def splitPunct (s : Text) : Option Piece :=
  (Punct.all.find? fun p => p.text.isPrefixOf s).map fun p =>
    ⟨.punct p, p.text, s.drop p.text.length⟩

def split : Text → Option Piece
  | [] => none
  | c :: rest =>
    if c.isDigit then
      let (source, after) := splitNumber (c :: rest)
      some ⟨.number, source, after⟩
    else if Text.isNameStart c then
      some ⟨.name, c :: rest.takeWhile Text.isNameChar, rest.dropWhile Text.isNameChar⟩
    else match Quote.ofChar? c with
      | some q => (splitString q rest).map fun (body, after) => ⟨.string, c :: body, after⟩
      | none => splitPunct (c :: rest)

/-- Each backslash is dropped and the character after it kept. -/
def unescape : Text → Text
  | [] => []
  | '\\' :: c :: rest => c :: unescape rest
  | c :: rest => c :: unescape rest

def readNumber (source : Text) : Except ReadError Lexeme :=
  if source.contains '.' then
    let whole := source.takeWhile (· != '.')
    let places := (source.dropWhile (· != '.')).drop 1
    let x := Binary64.ofDecimal false (Text.toNat (whole ++ places)) (-(places.length : Int))
    .ok (.decimal x)
  else (readDigits source).map .integer

def Piece.read (piece : Piece) : Except ReadError Lexeme :=
  match piece.shape with
  | .number => readNumber piece.source
  | .string => .ok (.text (unescape (piece.source.drop 1).dropLast))
  | .punct p => .ok (.punct p)
  | .name => .ok (.name piece.source)

theorem splitNumber_append (s : Text) : (splitNumber s).1 ++ (splitNumber s).2 = s := by
  have whole := List.takeWhile_append_dropWhile (p := Char.isDigit) (l := s)
  unfold splitNumber
  split
  next d rest h =>
    rw [h] at whole
    split
    · simpa using whole
    · exact whole
  next => exact whole

theorem splitString_append {q : Quote} {s body after : Text}
    (h : splitString q s = some (body, after)) : body ++ after = s := by
  fun_induction splitString q s generalizing body after with
  | case1 => cases h
  | case2 => cases h
  | case3 c rest _ ih =>
    obtain ⟨⟨b, a⟩, hb, he⟩ := Option.map_eq_some_iff.1 h
    obtain ⟨rfl, rfl⟩ := Prod.mk.inj he
    simp [ih hb]
  | case4 => cases h; rfl
  | case5 => cases h
  | case6 c rest _ _ _ ih =>
    obtain ⟨⟨b, a⟩, hb, he⟩ := Option.map_eq_some_iff.1 h
    obtain ⟨rfl, rfl⟩ := Prod.mk.inj he
    simp [ih hb]

theorem splitPunct_append {s : Text} {p : Piece} (h : splitPunct s = some p) :
    p.source ++ p.rest = s ∧ p.source ≠ [] := by
  obtain ⟨m, found, rfl⟩ := Option.map_eq_some_iff.1 h
  have starts := List.find?_some found
  obtain ⟨rest, rfl⟩ := List.isPrefixOf_iff_prefix.1 starts
  simp [Punct.text_ne_nil]

/-- The source of a token and what follows it make up the text, and the source is not empty. -/
theorem split_append {s : Text} {p : Piece} (h : split s = some p) :
    p.source ++ p.rest = s ∧ p.source ≠ [] := by
  cases s with
  | nil => cases h
  | cons c rest =>
    simp only [split] at h
    split at h
    next digit =>
      have whole := splitNumber_append (c :: rest)
      cases h
      refine ⟨whole, ?_⟩
      intro none
      simp only [splitNumber] at none
      split at none
      next => split at none <;> simp_all
      next => simp_all
    next =>
      split at h
      next => cases h; simp [List.takeWhile_append_dropWhile]
      next =>
        split at h
        next q _ =>
          obtain ⟨⟨body, after⟩, hb, rfl⟩ := Option.map_eq_some_iff.1 h
          simp [splitString_append hb]
        next => exact splitPunct_append h

theorem split_shorter {s : Text} {p : Piece} (h : split s = some p) :
    p.rest.length < s.length := by
  obtain ⟨rfl, ne⟩ := split_append h
  have := List.length_pos_iff.2 ne
  simp; omega

/-- The tokens of a text that stands at a position. -/
def lexFrom (pos : Nat) (s : Text) : Except ReadError (List Token) :=
  match s with
  | [] => .ok []
  | c :: rest =>
    if Text.isLayout c then lexFrom (pos + 1) rest
    else
      match _cut : split (c :: rest) with
      | some piece =>
        match piece.read with
        | .ok lexeme =>
          match lexFrom (pos + piece.source.length) piece.rest with
          | .ok more => .ok (⟨lexeme, piece.source, pos⟩ :: more)
          | .error e => .error e
        | .error e => .error e
      | none =>
        .error (.malformed (if (Quote.ofChar? c).isSome then .unterminatedString pos
          else .unexpectedCharacter pos))
termination_by s.length
decreasing_by
  · simp
  · exact split_shorter _cut

def lex (s : Text) : Except ReadError (List Token) := lexFrom 0 s

end BranchGate.Token
