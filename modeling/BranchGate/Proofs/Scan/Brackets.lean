import BranchGate.Proofs.Mask.Tokens
import BranchGate.Proofs.Text.Trim
import BranchGate.Proofs.Token.Neighbours
import BranchGate.Scan.Brackets

/-! What a passed bracket scan says about the keys of a text: a text key is written between its
quotes as it is, without a backslash. -/
namespace BranchGate.Scan

variable {limit : Limit} {before : Text} {inside : Option Text}

/-- A scan that passes goes on after every part of the text. -/
theorem bracketFaultFrom_later {m p masked plain : Text} (length : m.length = p.length)
    (passes : bracketFaultFrom limit before inside (m ++ masked) (p ++ plain) = none) :
    ∃ before inside, bracketFaultFrom limit before inside masked plain = none := by
  induction m generalizing p before inside with
  | nil =>
    rw [List.length_eq_zero_iff.1 length.symm] at passes
    exact ⟨before, inside, passes⟩
  | cons c m ih =>
    cases p with
    | nil => cases length
    | cons d p =>
      have length : m.length = p.length := Nat.succ.inj length
      simp only [List.cons_append, bracketFaultFrom] at passes
      split at passes
      · split at passes
        · cases passes
        · split at passes
          · exact ih length passes
          · cases passes
      · split at passes
        · split at passes
          · cases passes
          · split at passes
            · exact ih length passes
            · cases passes
        · exact ih length passes

theorem bracketFaultFrom_inside {m p masked plain : Text} (length : m.length = p.length)
    (other : ∀ c ∈ m, c ≠ '[' ∧ c ≠ ']') :
    bracketFaultFrom limit before inside (m ++ masked) (p ++ plain) =
      bracketFaultFrom limit (m.reverse ++ before) (inside.map (p.reverse ++ ·)) masked plain := by
  induction m generalizing p before inside with
  | nil =>
    rw [List.length_eq_zero_iff.1 length.symm]
    cases inside <;> rfl
  | cons c m ih =>
    cases p with
    | nil => cases length
    | cons d p =>
      obtain ⟨first, others⟩ := List.forall_mem_cons.1 other
      simp only [List.cons_append, bracketFaultFrom, first.1, first.2, ↓reduceIte]
      rw [ih (Nat.succ.inj length) others]
      cases inside <;> simp

theorem bracketFaultFrom_open {masked plain : Text}
    (passes : bracketFaultFrom limit before inside ('[' :: masked) ('[' :: plain) = none) :
    bracketFaultFrom limit ('[' :: before) (some []) masked plain = none := by
  simp only [bracketFaultFrom, ↓reduceIte] at passes
  split at passes
  · cases passes
  · split at passes
    · exact passes
    · cases passes

theorem bracketFaultFrom_close {content masked plain : Text} {c : Char}
    (passes : bracketFaultFrom limit before (some content) (']' :: masked) (c :: plain) = none) :
    isIndex limit (Text.trim content.reverse) = true ∨
      isQuotedKey (Text.trim content.reverse) = true := by
  simp only [bracketFaultFrom, Char.reduceEq, ↓reduceIte] at passes
  split at passes
  next allowed => simpa using allowed
  next => cases passes

/-- A text that shows no brackets and leaves the mask in code. -/
structure Unbracketed (x : Text) : Prop where
  closed : Region.code.after x = .code
  shown : ∀ c ∈ mask x, c ≠ '[' ∧ c ≠ ']'

theorem Unbracketed.append {x y : Text} (left : Unbracketed x) (right : Unbracketed y) :
    Unbracketed (x ++ y) where
  closed := by rw [Region.after_append, left.closed, right.closed]
  shown := by
    rw [mask_append left.closed]
    exact List.forall_mem_append.2 ⟨left.shown, right.shown⟩

theorem unbracketed_blank {x : Text} (blank : ∀ c ∈ x, Text.isBlank c = true) : Unbracketed x where
  closed := (mask_blank blank).2
  shown := by
    rw [(mask_blank blank).1]
    intro c inside
    constructor
    · rintro rfl
      cases blank _ inside
    · rintro rfl
      cases blank _ inside

/-- Only the brackets themselves show as brackets. -/
theorem unbracketed_token {lexeme : Lexeme} {source : Text} (spells : Token.Spells lexeme source)
    (opens : lexeme ≠ .punct .openBracket) (closes : lexeme ≠ .punct .closeBracket) :
    Unbracketed source where
  closed := spells.closed
  shown := by
    have inner {c : Char} (inner : Text.isNameChar c = true) : c ≠ '[' ∧ c ≠ ']' := by
      constructor
      · rintro rfl
        cases inner
      · rintro rfl
        cases inner
    have digit {c : Char} (digit : c.isDigit = true) : c ≠ '[' ∧ c ≠ ']' :=
      inner (Text.isNameChar_of_isDigit digit)
    cases spells with
    | @text q body quoted =>
      have quote : q.char ≠ '[' ∧ q.char ≠ ']' := by cases q <;> decide
      rw [quoted.mask_string.1]
      intro c inside
      simp only [List.mem_append, List.mem_cons, List.mem_replicate, List.not_mem_nil, or_false]
        at inside
      rcases inside with rfl | ⟨_, rfl⟩ | rfl
      · exact quote
      · decide
      · exact quote
    | integer digits short =>
      rw [(Token.Spells.integer digits short).mask_code (by simp)]
      exact fun c inside => digit (digits.2 c inside)
    | decimal whole places =>
      rw [(Token.Spells.decimal whole places).mask_code (by simp)]
      refine List.forall_mem_append.2 ⟨fun c inside => digit (whole.2 c inside), ?_⟩
      exact List.forall_mem_cons.2 ⟨by decide, fun c inside => digit (places.2 c inside)⟩
    | punct p =>
      rw [(Token.Spells.punct p).mask_code (by simp)]
      have all : p.text.all (fun c => c != '[' && c != ']') = true := by
        cases p with
        | openBracket => exact absurd rfl opens
        | closeBracket => exact absurd rfl closes
        | _ => rfl
      simpa using List.all_eq_true.1 all
    | name named =>
      rw [(Token.Spells.name named).mask_code (by simp)]
      exact fun c inside => inner (Text.isNameChar_of_mem named inside)

/-- A part without brackets only adds to what was read. -/
theorem bracketFaultFrom_unbracketed {x : Text} (unbracketed : Unbracketed x) (rest : Text) :
    bracketFaultFrom limit before inside (mask (x ++ rest)) (x ++ rest) =
      bracketFaultFrom limit ((mask x).reverse ++ before) (inside.map (x.reverse ++ ·))
        (mask rest) rest := by
  rw [mask_append unbracketed.closed]
  exact bracketFaultFrom_inside (length_mask x) unbracketed.shown

/-- What stands between brackets is an index or a quoted key, blanks around it aside. -/
theorem bracketed_content {a content b : Text}
    (passes : bracketFault? limit (a ++ '[' :: (content ++ ']' :: b)) = none)
    (before : Region.code.after a = .code) (within : Unbracketed content) :
    isIndex limit (Text.trim content) = true ∨ isQuotedKey (Text.trim content) = true := by
  have opens (t : Text) : mask ('[' :: t) = '[' :: mask t := rfl
  have closes (t : Text) : mask (']' :: t) = ']' :: mask t := rfl
  rw [bracketFault?, mask_append before, opens] at passes
  obtain ⟨_, _, passes⟩ := bracketFaultFrom_later (length_mask a) passes
  have passes := bracketFaultFrom_open passes
  rw [bracketFaultFrom_unbracketed within, closes] at passes
  simpa using bracketFaultFrom_close passes

/-- A token is trimmed to itself, whatever blanks stand around it. -/
theorem trim_token {lexeme : Lexeme} {l source r : Text} (spells : Token.Spells lexeme source)
    (left : ∀ c ∈ l, Text.isBlank c = true) (right : ∀ c ∈ r, Text.isBlank c = true) :
    Text.trim (l ++ (source ++ r)) = source := by
  obtain ⟨c, tail, first, begins⟩ := spells.mask_first
  obtain ⟨init, d, last, ink, _⟩ := spells.mask_last
  rcases spells.string_or_code with ⟨q, body, _, rfl, _⟩ | ⟨code, _⟩
  · apply Text.trim_padded left right ⟨_, _, rfl, Text.isBlank_quote q⟩
    rw [← List.cons_append, List.getLast?_concat]
    rintro _ ⟨⟩
    exact Text.isBlank_quote q
  · rw [spells.mask_code code] at first last
    apply Text.trim_padded left right ⟨c, tail, first, begins.ink⟩
    rw [last, List.getLast?_concat]
    rintro _ ⟨⟩
    exact ink

theorem isIndex_quote (limit : Limit) (q : Quote) (rest : Text) :
    isIndex limit (q.char :: rest) = false := by
  unfold isIndex
  split <;> simp [Text.isDigit_quote]

theorem isQuotedKey_plain {q : Quote} {body : Text}
    (key : isQuotedKey (q.char :: (body ++ [q.char])) = true) : q.char ∉ body ∧ '\\' ∉ body := by
  simp only [isQuotedKey, Quote.ofChar?_char, List.getLast?_concat, List.dropLast_concat,
    Bool.and_eq_true, List.all_eq_true, bne_iff_ne] at key
  exact ⟨fun inside => (key.2 _ inside).1 rfl, fun inside => (key.2 _ inside).2 rfl⟩

/-- A text that stands between quotes just as it is. -/
def Verbatim (s k : Text) : Prop :=
  ∃ (q : Quote) (a b : Text), s = a ++ q.char :: (k ++ q.char :: b) ∧
    Region.code.after a = .code ∧ q.char ∉ k ∧ '\\' ∉ k

/-- In a text that lexes and passes the scan, keys hide nothing behind an escape. -/
theorem key_verbatim {s k : Text} {ts : List Token} (laid : Token.Lexed 0 s ts)
    (passes : bracketFault? limit s = none)
    (written : [.punct .openBracket, .text k, .punct .closeBracket] <:+: ts.map Token.lexeme) :
    Verbatim s k := by
  obtain ⟨a, l, source, r, b, rfl, ⟨_, front⟩, left, right, spells⟩ := laid.bracketed written
  obtain ⟨q, body, rfl, quoted, rfl⟩ := spells.text_source
  have left : ∀ c ∈ l, Text.isBlank c = true := fun c inside =>
    Text.isBlank_of_isLayout (left c inside)
  have right : ∀ c ∈ r, Text.isBlank c = true := fun c inside =>
    Text.isBlank_of_isLayout (right c inside)
  have within : Unbracketed (l ++ (q.char :: (body ++ [q.char]) ++ r)) :=
    (unbracketed_blank left).append
      ((unbracketed_token spells nofun nofun).append (unbracketed_blank right))
  have content := bracketed_content passes front.closed within
  -- An index begins with no quote, so the scan let the content pass as a quoted key.
  rw [trim_token spells left right, isIndex_quote] at content
  obtain ⟨bare, plain⟩ := isQuotedKey_plain (content.resolve_left nofun)
  rw [Token.unescape_plain plain]
  refine ⟨q, a ++ '[' :: l, r ++ ']' :: b, by simp, ?_, bare, plain⟩
  rw [Region.after_append, front.closed]
  exact (mask_blank left).2

end BranchGate.Scan
