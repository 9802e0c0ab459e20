import BranchGate.Proofs.Mask.Strings

/-! What the mask shows of a lexed text. A token shows at its ends what it is: only a name begins
with a letter, and only the marks themselves look like marks. -/
namespace BranchGate

theorem head?_maskFrom_code (s : Text) : (mask s).head? = s.head? := by
  cases s <;> rfl

/-- A text that ends in code shows its last character to the scans. -/
theorem getLast?_mask {s : Text} (closed : Region.code.after s = .code) :
    (mask s).getLast? = s.getLast? := by
  rcases List.eq_nil_or_concat' s with rfl | ⟨init, c, rfl⟩
  · rfl
  · rw [Region.after_append] at closed
    have last : (Region.code.after init).next c = .code := closed
    have shown : (Region.code.after init).shown c = c := by
      cases region : Region.code.after init with
      | code => rfl
      | literal q =>
        rw [region, Region.next] at last
        split at last
        · cases last
        · split at last
          next closing => rw [Region.shown, if_pos closing]
          next => cases last
      | escaped q => rw [region] at last; cases last
    rw [mask, maskFrom_append, maskFrom, shown, maskFrom, List.getLast?_concat,
      List.getLast?_concat]

namespace Token

variable {lexeme : Lexeme} {source : Text}

theorem Lexed.closed {pos : Nat} {s : Text} {ts : List Token} (lexed : Lexed pos s ts) :
    Region.code.after s = .code := by
  induction lexed with
  | done => rfl
  | @layout _ c rest _ layout _ ih =>
    have blank : ∀ d ∈ [c], Text.isBlank d = true := by simpa using Text.isBlank_of_isLayout layout
    rw [← List.singleton_append, Region.after_append, (mask_blank blank).2, ih]
  | token spells _ _ ih => rw [Region.after_append, spells.closed, ih]

theorem Spells.mask_code (spells : Spells lexeme source) (code : ∀ data, lexeme ≠ .text data) :
    mask source = source := by
  rcases spells.string_or_code with ⟨q, body, isText, _⟩ | ⟨_, unquoted⟩
  · exact absurd isText (code _)
  · exact (mask_unquoted unquoted).1

/-- What the first character of a token tells about it. -/
structure Begins (lexeme : Lexeme) (c : Char) : Prop where
  ink : Text.isBlank c = false
  name : Text.isNameStart c = true ↔ ∃ n, lexeme = .name n
  opens : c = '(' ↔ lexeme = .punct .openParen

theorem begins_digit {d : Char} (digit : d.isDigit = true) (unnamed : ∀ n, lexeme ≠ .name n)
    (other : lexeme ≠ .punct .openParen) : Begins lexeme d where
  ink := Text.isBlank_of_isNameChar (Text.isNameChar_of_isDigit digit)
  name := by simp [Text.isNameStart_of_isDigit digit, unnamed]
  opens := by
    refine ⟨?_, fun isOpen => absurd isOpen other⟩
    rintro rfl
    cases digit

theorem Spells.mask_first (spells : Spells lexeme source) :
    ∃ c tail, mask source = c :: tail ∧ Begins lexeme c := by
  cases spells with
  | integer digits =>
    rw [(Spells.integer digits ‹_›).mask_code (by simp)]
    obtain ⟨d, rest, rfl, digit⟩ := digits.cons
    exact ⟨d, rest, rfl, begins_digit digit (by simp) (by simp)⟩
  | decimal whole places =>
    rw [(Spells.decimal whole places).mask_code (by simp)]
    obtain ⟨d, rest, rfl, digit⟩ := whole.cons
    exact ⟨d, _, rfl, begins_digit digit (by simp) (by simp)⟩
  | @text q body quoted =>
    refine ⟨q.char, _, quoted.mask_string.1, Text.isBlank_quote q, ?_, ?_⟩
    · cases q <;> simp <;> decide
    · cases q <;> simp <;> decide
  | punct p =>
    rw [(Spells.punct p).mask_code (by simp)]
    cases p <;> exact ⟨_, _, rfl, by decide, by simp; decide, by simp; try decide⟩
  | name named =>
    rw [(Spells.name named).mask_code (by simp)]
    cases source with
    | nil => cases named
    | cons c rest =>
      simp only [Text.isName, Bool.and_eq_true] at named
      refine ⟨c, rest, rfl, ?_, ?_, ?_⟩
      · exact Text.isBlank_of_isNameChar (Text.isNameChar_of_isNameStart named.1)
      · simp [named.1]
      · have other : c ≠ '(' := by
          rintro rfl
          cases named.1
        simp [other]

theorem Spells.mask_last (spells : Spells lexeme source) :
    ∃ init c, mask source = init ++ [c] ∧ Text.isBlank c = false ∧
      (c = '.' ↔ lexeme = .punct .dot) := by
  have digit_last {d : Char} (digit : d.isDigit = true) (other : lexeme ≠ .punct .dot) :
      Text.isBlank d = false ∧ (d = '.' ↔ lexeme = .punct .dot) := by
    refine ⟨Text.isBlank_of_isNameChar (Text.isNameChar_of_isDigit digit), ?_, ?_⟩
    · rintro rfl
      cases digit
    · exact fun isDot => absurd isDot other
  cases spells with
  | integer digits =>
    rw [(Spells.integer digits ‹_›).mask_code (by simp)]
    obtain ⟨rest, d, rfl, digit⟩ := digits.concat
    exact ⟨rest, d, rfl, digit_last digit (by simp)⟩
  | decimal whole places =>
    rw [(Spells.decimal whole places).mask_code (by simp)]
    obtain ⟨rest, d, rfl, digit⟩ := places.concat
    exact ⟨_, d, (List.append_assoc _ ('.' :: rest) [d]).symm, digit_last digit (by simp)⟩
  | @text q body quoted =>
    refine ⟨q.char :: List.replicate body.length ' ', q.char, quoted.mask_string.1,
      Text.isBlank_quote q, ?_⟩
    cases q <;> simp <;> decide
  | punct p =>
    rw [(Spells.punct p).mask_code (by simp)]
    cases p <;> exact ⟨_, _, (List.dropLast_concat_getLast (by decide)).symm, by decide, by decide⟩
  | name named =>
    rw [(Spells.name named).mask_code (by simp)]
    have filled := (Spells.name named).ne_nil
    have inner := Text.isNameChar_of_mem named (List.getLast_mem filled)
    have other : source.getLast filled ≠ '.' := by
      intro isDot
      rw [isDot] at inner
      cases inner
    exact ⟨_, _, (List.dropLast_concat_getLast filled).symm, Text.isBlank_of_isNameChar inner,
      by simp [other]⟩

end Token
end BranchGate
