import BranchGate.Proofs.Expr.Neighbours
import BranchGate.Proofs.Rule.Seams

/-! Rules and the tokens of a text. Neighbours that the grammar allows meet in characters that no
pattern takes together, whatever the layout, so a text passes the rules exactly if the text of each
token does. -/
namespace BranchGate

/-- A character that no pattern looks for in pairs and that is part of no comparison. -/
structure Plain (c : Char) : Prop where
  unpaired : c ∉ pairedMarks
  comparison : Pattern.isComparison c = false

instance (c : Char) : Decidable (Plain c) :=
  decidable_of_iff (c ∉ pairedMarks ∧ Pattern.isComparison c = false)
    ⟨fun ⟨unpaired, comparison⟩ => ⟨unpaired, comparison⟩,
      fun ⟨unpaired, comparison⟩ => ⟨unpaired, comparison⟩⟩

variable {x y : Char}

theorem Plain.setApart_left (plain : Plain x)
    (word : Text.isWord x = false ∨ Text.isWord y = false) : SetApart x y where
  word := word
  equals := fun comparison => absurd comparison (by simp [plain.comparison])
  pair := fun _ => plain.unpaired

theorem Plain.setApart_right (plain : Plain y)
    (word : Text.isWord x = false ∨ Text.isWord y = false) : SetApart x y where
  word := word
  equals := by
    rintro - rfl
    cases plain.comparison
  pair := fun same => same ▸ plain.unpaired

theorem plain_of_isNameChar {c : Char} (inner : Text.isNameChar c = true) : Plain c where
  unpaired := by
    intro paired
    cases (pairedMarks_ascii c paired).2.2.1.symm.trans inner
  comparison := by
    refine eq_false_of_ne_true fun comparison => ?_
    simp only [Pattern.isComparison, Bool.or_eq_true, beq_iff_eq] at comparison
    rcases comparison with ((rfl | rfl) | rfl) | rfl <;> cases inner

theorem plain_quote (q : Quote) : Plain q.char := by cases q <;> decide

namespace Token

open BranchGate.Expr (Beside)

variable {l l' : Lexeme} {source source' : Text}

/-- A token that is no mark is plain at both ends. -/
theorem Spells.plain_ends (spells : Spells l source) (unmarked : ∀ p, l ≠ .punct p) :
    (∀ c ∈ source.head?, Plain c) ∧ ∀ c ∈ source.getLast?, Plain c := by
  have digits {ds : Text} (digits : IsDigits ds) : ∀ c ∈ ds, Plain c := fun c inside =>
    plain_of_isNameChar (Text.isNameChar_of_isDigit (digits.2 c inside))
  cases spells with
  | integer whole =>
    exact ⟨fun c first => digits whole c (List.mem_of_head? first),
      fun c last => digits whole c (List.mem_of_getLast? last)⟩
  | decimal whole places =>
    constructor
    · rw [List.head?_append_of_ne_nil _ whole.1]
      exact fun c first => digits whole c (List.mem_of_head? first)
    · rw [List.getLast?_append_of_ne_nil _ (by simp), List.getLast?_cons_of_ne_nil places.1]
      exact fun c last => digits places c (List.mem_of_getLast? last)
  | text =>
    constructor
    · rintro _ ⟨⟩
      exact plain_quote _
    · rw [← List.cons_append, List.getLast?_concat]
      rintro _ ⟨⟩
      exact plain_quote _
  | punct p => exact absurd rfl (unmarked p)
  | name named =>
    exact ⟨fun c first => plain_of_isNameChar (Text.isNameChar_of_mem named (List.mem_of_head? first)),
      fun c last => plain_of_isNameChar (Text.isNameChar_of_mem named (List.mem_of_getLast? last))⟩

/-- Two marks side by side: one of them is a bracket or a negation, or a minus follows another
mark. -/
def MarksMeet (p q : Punct) : Prop :=
  p = .closeParen ∨ p = .closeBracket ∨ p = .openParen ∨ q = .openParen ∨ q = .not ∨
    q = .minus ∧ p ≠ .minus

instance (p q : Punct) : Decidable (MarksMeet p q) := inferInstanceAs (Decidable (_ ∨ _))

theorem setApart_marks : ∀ p ∈ Punct.all, ∀ q ∈ Punct.all, MarksMeet p q →
    SetApart (p.text.getLast p.text_ne_nil) (q.text.head q.text_ne_nil) := by decide +kernel

theorem marksMeet_of_beside {p q : Punct} (beside : Beside (.punct p) (.punct q)) :
    MarksMeet p q := by
  cases beside with
  | after closes _ => exact closes.imp_right .inl
  | before leads opens =>
    rcases opens with rfl | rfl | rfl
    · exact .inr (.inr (.inr (.inl rfl)))
    · exact .inr (.inr (.inr (.inr (.inl rfl))))
    · refine .inr (.inr (.inr (.inr (.inr ⟨rfl, ?_⟩))))
      rintro rfl
      exact absurd leads (by decide)
  | sign number => cases number
  | noArgument => exact .inr (.inr (.inl rfl))
  | indexed base =>
    rcases base with isClose | ⟨_, isName, _⟩
    · cases isClose
      exact .inl rfl
    · cases isName
  | key known | keyEnd known => cases known

/-- Of two neighbours one is a mark. -/
theorem mark_of_beside (beside : Beside l l') : (∃ p, l = .punct p) ∨ ∃ p, l' = .punct p := by
  cases beside with
  | after | noArgument | indexed | keyEnd | call => exact .inr ⟨_, rfl⟩
  | before | sign | property | key => exact .inl ⟨_, rfl⟩

theorem Spells.mark_char {p : Punct} {c : Char} (spells : Spells (.punct p) source)
    (inside : c ∈ source) : Text.isWord c = false :=
  (Text.punct_char (spells.punct_source ▸ inside)).2.2.1

/-- Neighbours meet in characters that no pattern takes together. -/
theorem setApart_of_beside (beside : Beside l l') (spells : Spells l source)
    (spells' : Spells l' source') :
    ∀ x ∈ source.getLast?, ∀ y ∈ source'.head?, SetApart x y := by
  intro x last y first
  by_cases left : ∃ p, l = .punct p
  · obtain ⟨p, rfl⟩ := left
    have word := spells.mark_char (List.mem_of_getLast? last)
    by_cases right : ∃ q, l' = .punct q
    · obtain ⟨q, rfl⟩ := right
      rw [spells.punct_source, List.getLast?_eq_some_getLast p.text_ne_nil] at last
      rw [spells'.punct_source, List.head?_eq_some_head q.text_ne_nil] at first
      cases last
      cases first
      exact setApart_marks p (Punct.mem_all p) q (Punct.mem_all q) (marksMeet_of_beside beside)
    · exact ((spells'.plain_ends (not_exists.1 right)).1 y first).setApart_right (.inl word)
  · obtain ⟨q, rfl⟩ := (mark_of_beside beside).resolve_left left
    have word := spells'.mark_char (List.mem_of_head? first)
    exact ((spells.plain_ends (not_exists.1 left)).2 x last).setApart_left (.inr word)

/-- A text begins with layout or with its first token. -/
theorem Lexed.begins {pos : Nat} {s : Text} {ts : List Token} (lexed : Lexed pos s ts) :
    ∀ c ∈ s.head?, Text.isLayout c = true ∨ ∃ t ∈ ts.head?, c ∈ t.source.head? := by
  intro c first
  cases lexed with
  | done => cases first
  | layout layout => cases first; exact .inl layout
  | token spells =>
    rw [List.head?_append_of_ne_nil _ spells.ne_nil] at first
    exact .inr ⟨_, rfl, first⟩

/-- Where neighbours are such as the grammar allows, a text passes the rules exactly if each of its
tokens does. -/
theorem Lexed.passes_iff {rules : List Rule} (regular : ∀ rule ∈ rules, rule.pattern.Regular)
    {pos : Nat} {s : Text} {ts : List Token} (lexed : Lexed pos s ts)
    (beside : (ts.map lexeme).IsChain Beside) :
    Rule.first? rules s = none ↔ ∀ t ∈ ts, Rule.first? rules t.source = none := by
  -- What comes first, layout or a token, is split off at a seam that no pattern sees.
  induction lexed with
  | done => exact ⟨fun _ => nofun, fun _ => Rule.first?_blank regular nofun⟩
  | @layout pos c rest ts layout _ ih =>
    have blank := Text.isBlank_of_isLayout layout
    have apart : ∀ x ∈ [c].getLast?, ∀ y ∈ rest.head?, SetApart x y := by
      rintro _ ⟨⟩ y _
      exact setApart_blank_left blank
    have passes : Rule.first? rules [c] = none := Rule.first?_blank regular (by simpa using blank)
    rw [← List.singleton_append, Rule.first?_append regular apart, ih beside]
    exact and_iff_right passes
  | @token pos l source rest ts spells _ more ih =>
    have apart : ∀ x ∈ source.getLast?, ∀ y ∈ rest.head?, SetApart x y := by
      intro x last y first
      rcases more.begins y first with layout | ⟨t, next, first⟩
      · exact setApart_blank_right (Text.isBlank_of_isLayout layout)
      · have beside : Beside l t.lexeme := by
          rw [List.map_cons, List.isChain_cons, List.head?_map] at beside
          exact beside.1 _ (Option.mem_map_of_mem _ next)
        have spells' := more.spells t (List.mem_of_mem_head? next)
        exact setApart_of_beside beside spells spells' x last y first
    rw [Rule.first?_append regular apart, ih beside.tail, List.forall_mem_cons]

end Token
end BranchGate
