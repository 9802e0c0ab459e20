import BranchGate.Proofs.Mask.Blanked
import BranchGate.Proofs.Mask.Tokens
import BranchGate.Proofs.Text.Trim
import BranchGate.Scan.Words

/-! Where the names that scans and tokens tell stand: outside strings, in the text as in the masked
text. -/
namespace BranchGate

section Mask

variable {region : Region} {n s t : Text} {i : Nat}

/-- What masking shows and is no blank stands in the text. -/
theorem prefix_of_maskFrom (solid : ∀ c ∈ n, c ≠ ' ') (shown : n <+: maskFrom region s) :
    n <+: s := by
  induction n generalizing region s with
  | nil => exact List.nil_prefix
  | cons c n ih =>
    obtain ⟨first, others⟩ := List.forall_mem_cons.1 solid
    cases s with
    | nil => cases List.prefix_nil.1 shown
    | cons d s =>
      obtain ⟨same, more⟩ := List.cons_prefix_cons.1 shown
      have plain : region.shown d = d ∨ region.shown d = ' ' := by
        cases region with
        | code => exact .inl rfl
        | escaped => exact .inr rfl
        | literal q =>
          simp only [Region.shown]
          split
          · exact .inl rfl
          · exact .inr rfl
      rcases plain with visible | blank
      · rw [visible] at same
        exact List.cons_prefix_cons.2 ⟨same, ih others more⟩
      · exact absurd (same.trans blank) first

theorem drop_maskFrom :
    (maskFrom region s).drop i = maskFrom (region.after (s.take i)) (s.drop i) := by
  induction i generalizing region s with
  | zero => rfl
  | succ i ih =>
    cases s with
    | nil => rfl
    | cons c s => exact ih

/-- A text that stands in another at a place where masking shows it. -/
def ShownIn (s n : Text) : Prop := ∃ i, n <+: s.drop i ∧ n <+: (mask s).drop i

theorem shownIn_of_infix (named : Text.isName n = true) (inside : n <:+: mask s) :
    ShownIn s n := by
  have solid : ∀ c ∈ n, c ≠ ' ' := by
    rintro c member rfl
    cases Text.isNameChar_of_mem named member
  obtain ⟨a, b, whole⟩ := inside
  have shown : n <+: (mask s).drop a.length :=
    ⟨b, by rw [← whole, List.append_assoc, List.drop_left]⟩
  have stands := shown
  rw [mask, drop_maskFrom] at stands
  exact ⟨a.length, prefix_of_maskFrom solid stands, shown⟩

/-- Blanks around a text hide nothing of it. -/
theorem infix_mask_of_trim (inside : n <:+: mask (Text.trim t)) : n <:+: mask t := by
  obtain ⟨l, r, padded, blank, _⟩ := Text.trim_infix t
  have whole : mask t = mask l ++ (mask (Text.trim t) ++
      maskFrom (Region.code.after (Text.trim t)) r) := by
    conv => lhs; rw [padded, mask_append (mask_blank blank).2, mask, mask, maskFrom_append]
    rfl
  rw [whole]
  exact inside.trans ⟨mask l, _, List.append_assoc ..⟩

end Mask

namespace Scan

variable {s before name : Text}

/-- The word at the head of a text. -/
theorem word_stands {c : Char} (start : Text.isNameStart c = true) (rest : Text) :
    Text.isName (c :: rest.takeWhile Text.isNameChar) = true ∧
      c :: rest.takeWhile Text.isNameChar <+: c :: rest := by
  refine ⟨?_, List.cons_prefix_cons.2 ⟨rfl, List.takeWhile_prefix _⟩⟩
  rw [Text.isName, start, List.all_takeWhile]
  rfl

theorem calledName?_stands (called : calledName? s = some name) :
    Text.isName name = true ∧ name <:+: s := by
  unfold calledName? at called
  dsimp only at called
  split at called
  next c rest shape =>
    split at called
    next start =>
      split at called
      next =>
        cases called
        obtain ⟨named, begins⟩ := word_stands start rest
        exact ⟨named, begins.isInfix.trans (shape ▸ (List.dropWhile_suffix _).isInfix)⟩
      next => cases called
    next => cases called
  next => cases called

theorem calledNames_stand (called : name ∈ calledNames s) :
    Text.isName name = true ∧ name <:+: s := by
  induction s with
  | nil => cases called
  | cons c rest ih =>
    have later (stands : Text.isName name = true ∧ name <:+: rest) :
        Text.isName name = true ∧ name <:+: c :: rest :=
      ⟨stands.1, stands.2.trans (List.suffix_cons c rest).isInfix⟩
    rw [calledNames] at called
    split at called
    · rcases List.mem_append.1 called with here | after
      · exact later (calledName?_stands (Option.mem_toList.1 here))
      · exact later (ih after)
    · exact later (ih called)

theorem words_stand {w : Word} {inWord : Bool} (word : w ∈ wordsFrom before inWord s) :
    Text.isName w.name = true ∧ w.name <:+: s := by
  induction s generalizing before inWord with
  | nil => cases word
  | cons c rest ih =>
    have later {b : Text} {inside : Bool} (member : w ∈ wordsFrom b inside rest) :
        Text.isName w.name = true ∧ w.name <:+: c :: rest :=
      ⟨(ih member).1, (ih member).2.trans (List.suffix_cons c rest).isInfix⟩
    rw [wordsFrom] at word
    split at word
    · exact later word
    · split at word
      next start =>
        rcases List.mem_cons.1 word with rfl | after
        · obtain ⟨named, begins⟩ := word_stands start rest
          exact ⟨named, begins.isInfix⟩
        · exact later after
      next => exact later word

end Scan

theorem Token.name_stands {s n : Text} {ts : List Token} {t : Token} (lexed : Token.Lexed 0 s ts)
    (member : t ∈ ts) (isName : t.lexeme = .name n) :
    Text.isName n = true ∧ n <:+: mask s := by
  have spells := lexed.spells t member
  rw [isName] at spells
  obtain ⟨source, named⟩ := spells.name_source
  have shown : mask t.source = n := by rw [spells.mask_code nofun, source]
  have stands := (lexed.blanked.source_at t.blanked (List.mem_map_of_mem member)).2
  rw [Token.blanked, shown] at stands
  exact ⟨named, stands.isInfix.trans (List.drop_suffix _ _).isInfix⟩

end BranchGate
