import BranchGate.Proofs.Lists
import BranchGate.Proofs.Token.Lexed

/-! How tokens that follow each other stand in the text: with layout between them at most. -/
namespace BranchGate.Token

theorem Spells.head {lexeme : Lexeme} {source : Text} (spells : Spells lexeme source) :
    ∀ c ∈ source.head?, Text.isNameChar c = true ∨ Text.isWord c = false := by
  intro c first
  cases spells with
  | integer digits =>
    exact .inl (Text.isNameChar_of_isDigit (digits.2 c (List.mem_of_head? first)))
  | decimal whole places =>
    obtain ⟨d, rest, rfl, digit⟩ := whole.cons
    cases first
    exact .inl (Text.isNameChar_of_isDigit digit)
  | text => cases first; exact .inr (Text.isWord_quote _)
  | punct p => exact .inr (Text.punct_char (List.mem_of_head? first)).2.2.1
  | name named => exact .inl (Text.isNameChar_of_mem named (List.mem_of_head? first))

/-- Only a name or a number may begin with a word character. -/
theorem Lexed.head {pos : Nat} {s : Text} {ts : List Token} (lexed : Lexed pos s ts) :
    ∀ c ∈ s.head?, Text.isNameChar c = true ∨ Text.isWord c = false := by
  intro c first
  cases lexed with
  | done => cases first
  | layout layout => cases first; exact .inr (Text.isWord_of_isLayout layout)
  | token spells =>
    obtain ⟨d, source, rfl⟩ := List.exists_cons_of_ne_nil spells.ne_nil
    exact spells.head c first

/-- A name after a dot is set off by characters of no word. -/
theorem Lexed.property {s n : Text} {ts : List Token} (lexed : Lexed 0 s ts)
    (written : [.punct .dot, .name n] <:+: ts.map lexeme) : ∃ a b, s = a ++ (n ++ b) ∧
      Text.isName n = true ∧ (∀ c ∈ a.getLast?, Text.isWord c = false) ∧
      ∀ c ∈ b.head?, Text.isWord c = false := by
  obtain ⟨dot, name, ⟨before, after, whole⟩, isDot, isName⟩ := pair_of_infix_map written
  rw [List.append_assoc] at whole
  subst whole
  obtain ⟨a, _, rfl, _, _, spellsDot, _, lexed⟩ := lexed.split
  obtain ⟨l, b, rfl, _, left, spellsName, apart, lexed⟩ := lexed.split (l := [])
  rw [isName] at spellsName apart
  obtain ⟨source, named⟩ := spellsName.name_source
  have point : dot.source = ['.'] := (isDot ▸ spellsDot).punct_source
  refine ⟨a ++ '.' :: l, b, by simp [point, source], named, ?_, ?_⟩
  · intro c last
    rw [List.getLast?_append, List.getLast?_cons, Option.some_or, ← List.getLast?_cons] at last
    rcases List.mem_cons.1 (List.mem_of_getLast? last) with rfl | inside
    · rfl
    · exact Text.isWord_of_isLayout (left.layout_of_nil c inside)
  · intro c first
    refine (lexed.head c first).resolve_left ?_
    rw [apart c first]
    exact nofun

/-- A token alone between brackets, with the layout around it. -/
theorem Lexed.bracketed {s : Text} {ts : List Token} {sign : Lexeme} (lexed : Lexed 0 s ts)
    (written : [.punct .openBracket, sign, .punct .closeBracket] <:+: ts.map lexeme) :
    ∃ a l source r b, s = a ++ '[' :: (l ++ (source ++ r) ++ ']' :: b) ∧
      (∃ before, Lexed 0 a before) ∧ (∀ c ∈ l, Text.isLayout c = true) ∧
      (∀ c ∈ r, Text.isLayout c = true) ∧ Spells sign source := by
  obtain ⟨part, ⟨before, after, whole⟩, same⟩ := List.infix_map_iff.1 written
  obtain ⟨opening, _, rfl, isOpen, same⟩ := List.map_eq_cons_iff.1 same.symm
  obtain ⟨key, _, rfl, isKey, same⟩ := List.map_eq_cons_iff.1 same
  obtain ⟨closing, _, rfl, isClose, none⟩ := List.map_eq_cons_iff.1 same
  rw [List.map_eq_nil_iff.1 none, List.append_assoc] at whole
  subst whole
  obtain ⟨a, _, rfl, _, front, spellsOpen, _, lexed⟩ := lexed.split
  obtain ⟨l, _, rfl, _, left, spellsKey, _, lexed⟩ := lexed.split (l := [])
  obtain ⟨r, b, rfl, _, right, spellsClose, _⟩ := lexed.split (l := [])
  have opens : opening.source = ['['] := (isOpen ▸ spellsOpen).punct_source
  have closes : closing.source = [']'] := (isClose ▸ spellsClose).punct_source
  refine ⟨a, l, key.source, r, b, ?_, ⟨before, front⟩, left.layout_of_nil, right.layout_of_nil,
    isKey ▸ spellsKey⟩
  rw [opens, closes]
  simp

end BranchGate.Token
