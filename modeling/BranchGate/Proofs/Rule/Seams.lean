import BranchGate.Proofs.Lists
import BranchGate.Proofs.Rule.Words
import Mathlib.Data.List.Chain

/-! Rules and the parts of a text. Where two parts meet in characters that no pattern takes
together, a pattern occurs in the whole exactly if it occurs in one of the parts. -/
namespace BranchGate

namespace Text

/-- The characters that words are spelled with. -/
def isLetter (c : Char) : Bool := c.isAlphanum || c == '_'

theorem isLetter_range {c : Char} (letter : isLetter c = true) : 48 ≤ c.toNat ∧ c.toNat ≤ 122 := by
  simp only [isLetter, Char.isAlphanum, Bool.or_eq_true, beq_iff_eq] at letter
  rcases letter with (alpha | digit) | rfl
  · rcases Bool.or_eq_true_iff.1 alpha with upper | lower
    · have := isUpper_range upper; omega
    · have := isLower_range lower; omega
  · have := isDigit_range digit; omega
  · decide

theorem isWord_of_isLetter {c : Char} (letter : isLetter c = true) : isWord c = true := by
  have range := isLetter_range letter
  rw [isWord, if_pos (by omega)]
  exact letter

theorem isLower_of_range {c : Char} (low : 97 ≤ c.toNat) (high : c.toNat ≤ 122) :
    c.isLower = true :=
  Bool.and_eq_true_iff.2 ⟨decide_eq_true (UInt32.le_iff_toNat_le.2 low),
    decide_eq_true (UInt32.le_iff_toNat_le.2 high)⟩

theorem isUpper_of_range {c : Char} (low : 65 ≤ c.toNat) (high : c.toNat ≤ 90) :
    c.isUpper = true :=
  decide_eq_true ⟨UInt32.le_iff_toNat_le.2 low, UInt32.le_iff_toNat_le.2 high⟩

/-- Only ASCII letters change in lower case, and they stay letters. -/
theorem isLetter_toLower {c : Char} : isLetter c.toLower = isLetter c := by
  rcases toLower_cases c with same | ⟨low, high, moved⟩
  · rw [same]
  · have upper : c.isAlpha = true := Bool.or_eq_true_iff.2 (.inl (isUpper_of_range low high))
    have lower : c.toLower.isAlpha = true :=
      Bool.or_eq_true_iff.2 (.inr (isLower_of_range (by omega) (by omega)))
    simp [isLetter, Char.isAlphanum, upper, lower]

/-- Letter case aside, only four characters are taken for others. -/
theorem fold_cases (c : Char) : fold c = c.toLower ∨ isWord c = true ∧ (fold c).isAlpha = true := by
  unfold fold
  split
  next dotted => right; rcases dotted with rfl | rfl <;> decide +kernel
  next =>
    split
    next long => right; subst long; decide +kernel
    next =>
      split
      next kelvin => right; subst kelvin; decide +kernel
      next => exact .inl rfl

/-- What is taken for a letter of a word is a word character. -/
theorem isWord_of_sameLetter {a c : Char} (letter : isLetter a = true)
    (same : sameLetter a c = true) : isWord c = true := by
  have ascii := (isLetter_range letter).2
  rw [sameLetter, beq_iff_eq, fold_of_ascii (by omega)] at same
  rcases fold_cases c with lower | ⟨word, _⟩
  · rw [lower] at same
    have letter' := isLetter_toLower (c := c)
    rw [← same, isLetter_toLower, letter] at letter'
    exact isWord_of_isLetter letter'.symm
  · exact word

/-- What has no case is taken for itself only. -/
theorem eq_of_sameLetter {a c : Char} (ascii : a.toNat < 128) (caseless : a.isAlpha = false)
    (same : sameLetter a c = true) : c = a := by
  obtain ⟨noUpper, noLower⟩ : a.isUpper = false ∧ a.isLower = false :=
    Bool.or_eq_false_iff.1 caseless
  rw [sameLetter, beq_iff_eq, fold_of_ascii ascii] at same
  have fixed : a.toLower = a := by
    rcases toLower_cases a with same | ⟨low, high, _⟩
    · exact same
    · cases noUpper.symm.trans (isUpper_of_range low high)
  rw [fixed] at same
  rcases fold_cases c with lower | ⟨_, alpha⟩
  · rw [lower] at same
    rcases toLower_cases c with same' | ⟨low, high, moved⟩
    · exact (same.trans same').symm
    · rw [same] at noLower
      cases noLower.symm.trans (isLower_of_range (by omega) (by omega))
  · rw [← same, caseless] at alpha
    cases alpha

/-- A word stands at the head of a text as characters that are taken for its letters. -/
theorem startsCaseless_iff {w s : Text} : startsCaseless w s = true ↔
    ∃ n rest, s = n ++ rest ∧ List.Forall₂ (fun a c => sameLetter a c = true) w n := by
  induction w generalizing s with
  | nil => simp [startsCaseless]
  | cons a w ih =>
    cases s with
    | nil => simp [startsCaseless]
    | cons c s =>
      simp only [startsCaseless, Bool.and_eq_true, ih, List.forall₂_cons_left_iff]
      constructor
      · rintro ⟨same, n, rest, rfl, others⟩
        exact ⟨c :: n, rest, rfl, c, n, same, others, rfl⟩
      · rintro ⟨_, rest, shape, d, n, same, others, rfl⟩
        obtain ⟨rfl, rfl⟩ := List.cons.inj shape
        exact ⟨same, n, rest, rfl, others⟩

end Text

open Text (isWord isLetter sameLetter startsCaseless)

/-- Marks that patterns look for in pairs. -/
def pairedMarks : List Char := ['+', '-', '<', '>']

theorem pairedMarks_ascii : ∀ m ∈ pairedMarks,
    m.toNat < 128 ∧ m.isAlpha = false ∧ Text.isNameChar m = false ∧ Text.isBlank m = false := by
  have all : pairedMarks.all (fun m => m.toNat < 128 && !m.isAlpha && !Text.isNameChar m &&
      !Text.isBlank m) = true := by decide
  simpa [and_assoc] using all

/-- Characters side by side that no pattern takes together, and whose neighbourhood decides about
no pattern. -/
structure SetApart (x y : Char) : Prop where
  word : isWord x = false ∨ isWord y = false
  equals : Pattern.isComparison x = true → y ≠ '='
  pair : x = y → x ∉ pairedMarks

instance (x y : Char) : Decidable (SetApart x y) :=
  decidable_of_iff ((isWord x = false ∨ isWord y = false) ∧
      (Pattern.isComparison x = true → y ≠ '=') ∧ (x = y → x ∉ pairedMarks))
    ⟨fun ⟨word, equals, pair⟩ => ⟨word, equals, pair⟩,
      fun ⟨word, equals, pair⟩ => ⟨word, equals, pair⟩⟩

namespace Pattern

/-- Neighbours in what a pattern spells: letters, or one mark twice. -/
def Linked (a b : Char) : Prop :=
  isLetter a = true ∧ isLetter b = true ∨ a = b ∧ a ∈ pairedMarks

instance (a b : Char) : Decidable (Linked a b) := inferInstanceAs (Decidable (_ ∨ _))

/-- The texts that a match is spelled as, case aside. -/
def spelled : Pattern → List Text
  | .assignment => [['=']]
  | .word ws => ws
  | .fragment fs => fs
  | .either p q => p.spelled ++ q.spelled

/-- Words are made of letters, fragments of letters or of one mark, and all is spelled in visible
characters. -/
structure Regular (p : Pattern) : Prop where
  spelled : ∀ w ∈ p.spelled, w ≠ [] ∧ ∀ c ∈ w, 33 ≤ c.toNat ∧ c.toNat ≤ 126
  words : ∀ w ∈ p.words, ∀ c ∈ w, isLetter c = true
  fragments : ∀ f ∈ p.fragments, f.IsChain Linked

instance (p : Pattern) : Decidable p.Regular :=
  have (w : Text) : Decidable (∀ c ∈ w, 33 ≤ c.toNat ∧ c.toNat ≤ 126) := List.decidableBAll _ w
  have (w : Text) : Decidable (∀ c ∈ w, isLetter c = true) := List.decidableBAll _ w
  decidable_of_iff ((∀ w ∈ p.spelled, w ≠ [] ∧ ∀ c ∈ w, 33 ≤ c.toNat ∧ c.toNat ≤ 126) ∧
      (∀ w ∈ p.words, ∀ c ∈ w, isLetter c = true) ∧ ∀ f ∈ p.fragments, f.IsChain Linked)
    ⟨fun ⟨spelled, words, fragments⟩ => ⟨spelled, words, fragments⟩,
      fun ⟨spelled, words, fragments⟩ => ⟨spelled, words, fragments⟩⟩

theorem Regular.left {p q : Pattern} (regular : (either p q).Regular) : p.Regular where
  spelled := fun w listed => regular.spelled w (List.mem_append_left _ listed)
  words := fun w listed => regular.words w (List.mem_append_left _ listed)
  fragments := fun f listed => regular.fragments f (List.mem_append_left _ listed)

theorem Regular.right {p q : Pattern} (regular : (either p q).Regular) : q.Regular where
  spelled := fun w listed => regular.spelled w (List.mem_append_right _ listed)
  words := fun w listed => regular.words w (List.mem_append_right _ listed)
  fragments := fun f listed => regular.fragments f (List.mem_append_right _ listed)

variable {p : Pattern} {f w s b : Text} {before : Option Char} {x y : Char}

theorem not_setApart_of_linked {a a' : Char} (linked : Linked a a') (same : sameLetter a x = true)
    (same' : sameLetter a' y = true) : ¬SetApart x y := by
  intro apart
  rcases linked with ⟨letter, letter'⟩ | ⟨rfl, mark⟩
  · have := Text.isWord_of_sameLetter letter same
    have := Text.isWord_of_sameLetter letter' same'
    rcases apart.word with outside | outside <;> simp_all
  · obtain ⟨ascii, plain, _⟩ := pairedMarks_ascii a mark
    obtain rfl := Text.eq_of_sameLetter ascii plain same
    obtain rfl := Text.eq_of_sameLetter ascii plain same'
    exact apart.pair rfl mark

/-- Nothing that is spelled in one goes over a seam. -/
theorem not_across {n₁ n₂ : Text} (chain : f.IsChain Linked)
    (same : List.Forall₂ (fun a c => sameLetter a c = true) f (n₁ ++ x :: y :: n₂)) :
    ¬SetApart x y := by
  induction n₁ generalizing f with
  | nil =>
    cases same with
    | cons first same =>
      cases same with
      | cons second _ =>
        exact not_setApart_of_linked (List.isChain_cons_cons.1 chain).1 first second
  | cons c n₁ ih =>
    cases same with
    | cons _ same => exact ih chain.tail same

theorem linked_of_letters (letters : ∀ c ∈ w, isLetter c = true) : w.IsChain Linked := by
  induction w with
  | nil => exact .nil
  | cons c w ih =>
    obtain ⟨letter, others⟩ := List.forall_mem_cons.1 letters
    refine List.isChain_cons.2 ⟨fun d next => .inl ⟨letter, ?_⟩, ih others⟩
    exact others d (List.mem_of_head? next)

/-- What stands at the head of a text ends before its seam. -/
theorem spelled_before_seam {n rest : Text} (chain : f.IsChain Linked)
    (apart : ∀ x ∈ s.getLast?, ∀ y ∈ b.head?, SetApart x y) (filled : s ≠ [])
    (whole : s ++ b = n ++ rest)
    (same : List.Forall₂ (fun a c => sameLetter a c = true) f n) :
    ∃ r, s = n ++ r ∧ rest = r ++ b := by
  rcases List.append_eq_append_iff.1 whole with ⟨m, rfl, rfl⟩ | ⟨m, rfl, rfl⟩
  · cases m with
    | nil => exact ⟨[], by simp, by simp⟩
    | cons y m =>
      obtain ⟨init, x, rfl⟩ : ∃ init x, s = init ++ [x] :=
        ⟨s.dropLast, s.getLast filled, (List.dropLast_concat_getLast filled).symm⟩
      rw [List.append_assoc, List.singleton_append] at same
      exact absurd (apart x (by simp) y rfl) (not_across chain same)
  · exact ⟨m, rfl, rfl⟩

theorem startsCaseless_before (chain : f.IsChain Linked)
    (apart : ∀ x ∈ s.getLast?, ∀ y ∈ b.head?, SetApart x y) (filled : s ≠ []) :
    startsCaseless f (s ++ b) = startsCaseless f s := by
  rw [Bool.eq_iff_iff, Text.startsCaseless_iff, Text.startsCaseless_iff]
  constructor
  · rintro ⟨n, rest, whole, same⟩
    obtain ⟨r, rfl, rfl⟩ := spelled_before_seam chain apart filled whole same
    exact ⟨n, r, rfl, same⟩
  · rintro ⟨n, r, rfl, same⟩
    exact ⟨n, r ++ b, by simp, same⟩

/-- What stands for a word is made of word characters. -/
theorem word_of_letters {n : Text} (letters : ∀ c ∈ w, isLetter c = true)
    (same : List.Forall₂ (fun a c => sameLetter a c = true) w n) : ∀ c ∈ n, isWord c = true := by
  induction same with
  | nil => exact nofun
  | cons first _ ih =>
    obtain ⟨letter, others⟩ := List.forall_mem_cons.1 letters
    exact List.forall_mem_cons.2 ⟨Text.isWord_of_sameLetter letter first, ih others⟩

theorem last_isWord {n : Text} (filled : w ≠ []) (letters : ∀ c ∈ w, isLetter c = true)
    (same : List.Forall₂ (fun a c => sameLetter a c = true) w n) :
    ∃ init x, n = init ++ [x] ∧ isWord x = true := by
  have length := same.length_eq
  have filled' : n ≠ [] := by
    rintro rfl
    exact filled (List.length_eq_zero_iff.1 length)
  refine ⟨n.dropLast, n.getLast filled', (List.dropLast_concat_getLast filled').symm, ?_⟩
  exact word_of_letters letters same _ (List.getLast_mem filled')

/-- A word that ends at a seam is set off there whatever follows. -/
theorem wordHere_before (filled : w ≠ []) (letters : ∀ c ∈ w, isLetter c = true)
    (apart : ∀ x ∈ s.getLast?, ∀ y ∈ b.head?, SetApart x y) (present : s ≠ []) :
    wordHere w before (s ++ b) = wordHere w before s := by
  have chain := linked_of_letters letters
  rw [wordHere, wordHere, startsCaseless_before chain apart present]
  cases starts : startsCaseless w s with
  | false => rfl
  | true =>
    obtain ⟨n, r, rfl, same⟩ := Text.startsCaseless_iff.1 starts
    rw [List.append_assoc, same.length_eq, List.drop_left, List.drop_left]
    cases r with
    | cons c r => rfl
    | nil =>
      -- The word ends at the seam, in a word character, so none follows.
      obtain ⟨init, x, rfl, word⟩ := last_isWord filled letters same
      cases b with
      | nil => rfl
      | cons y b =>
        have next : isWord y = false := by simpa [word] using (apart x (by simp) y rfl).word
        simp [next]

theorem here_before (regular : p.Regular)
    (apart : ∀ x ∈ s.getLast?, ∀ y ∈ b.head?, SetApart x y) (present : s ≠ []) :
    p.here before (s ++ b) = p.here before s := by
  induction p with
  | assignment =>
    obtain ⟨c, s, rfl⟩ := List.exists_cons_of_ne_nil present
    by_cases equals : c = '='
    · subst equals
      cases s with
      | cons d s => simp [here]
      | nil =>
        cases b with
        | nil => rfl
        | cons y b =>
          have next := (apart '=' rfl y rfl).equals rfl
          simp [here, bne, next]
    · simp [here, equals]
  | word ws =>
    exact any_congr_of_mem fun w listed =>
      wordHere_before (regular.spelled w listed).1 (regular.words w listed) apart present
  | fragment fs =>
    exact any_congr_of_mem fun f listed =>
      startsCaseless_before (regular.fragments f listed) apart present
  | either p q ihLeft ihRight =>
    rw [here, here, ihLeft regular.left, ihRight regular.right]

/-- What stands before a seam does not count after it. -/
theorem here_after (regular : p.Regular) (apart : ∀ x ∈ before, SetApart x y) :
    p.here before (y :: b) = p.here none (y :: b) := by
  cases before with
  | none => rfl
  | some x =>
    have apart := apart x rfl
    induction p with
    | assignment =>
      by_cases equals : y = '='
      · have other : isComparison x = false := by
          cases comparison : isComparison x with
          | false => rfl
          | true => exact absurd equals (apart.equals comparison)
        simp [here, other]
      · simp [here, equals]
    | word ws =>
      refine any_congr_of_mem fun w listed => ?_
      rcases apart.word with outside | outside
      · simp [wordHere, outside]
      · -- No word begins in a character of no word.
        have misses : startsCaseless w (y :: b) = false := by
          have letters := regular.words w listed
          obtain ⟨a, w, rfl⟩ := List.exists_cons_of_ne_nil (regular.spelled w listed).1
          cases same : sameLetter a y with
          | false => simp [startsCaseless, same]
          | true =>
            have word := Text.isWord_of_sameLetter (letters a List.mem_cons_self) same
            cases outside.symm.trans word
        simp [wordHere, misses]
    | fragment fs => rfl
    | either p q ihLeft ihRight => rw [here, here, ihLeft regular.left, ihRight regular.right]

theorem occursAfter_append {a : Text} (regular : p.Regular)
    (apart : ∀ x ∈ a.getLast?.or before, ∀ y ∈ b.head?, SetApart x y) :
    p.occursAfter before (a ++ b) = (p.occursAfter before a || p.occursAfter none b) := by
  induction a generalizing before with
  | nil =>
    cases b with
    | nil => rfl
    | cons y b =>
      have alone : p.here before (y :: b) = p.here none (y :: b) :=
        here_after regular fun x stands => apart x stands y rfl
      rw [List.nil_append, occursAfter, occursAfter, occursAfter, alone, Bool.false_or]
  | cons c a ih =>
    have last : (c :: a).getLast?.or before = a.getLast?.or (some c) := by
      rw [List.getLast?_cons]
      cases a.getLast? <;> rfl
    rw [last] at apart
    have apart' : ∀ x ∈ (c :: a).getLast?, ∀ y ∈ b.head?, SetApart x y := by
      rw [← Option.or_none (o := (c :: a).getLast?), List.getLast?_cons]
      cases shape : a.getLast? <;> simpa [shape] using apart
    rw [List.cons_append, occursAfter, occursAfter, ih apart, Bool.or_assoc, ← List.cons_append,
      here_before regular apart' (List.cons_ne_nil c a)]

/-- Joined texts hold what one of them holds, if no pattern sees their seam. -/
theorem occurs_append {a : Text} (regular : p.Regular)
    (apart : ∀ x ∈ a.getLast?, ∀ y ∈ b.head?, SetApart x y) :
    p.occurs (a ++ b) = (p.occurs a || p.occurs b) :=
  occursAfter_append regular (by rwa [Option.or_none])

/-- A match takes each character that it is spelled with from the text. -/
theorem spelled_of_here (stands : p.here before s = true) :
    ∃ w ∈ p.spelled, ∀ a ∈ w, ∃ c ∈ s, sameLetter a c = true := by
  have taken {f : Text} (starts : startsCaseless f s = true) :
      ∀ a ∈ f, ∃ c ∈ s, sameLetter a c = true := by
    obtain ⟨n, rest, rfl, same⟩ := Text.startsCaseless_iff.1 starts
    intro a inside
    obtain ⟨c, member, same⟩ := forall₂_exists_right same a inside
    exact ⟨c, List.mem_append_left rest member, same⟩
  induction p with
  | assignment =>
    refine ⟨['='], List.mem_singleton_self _, ?_⟩
    cases s with
    | nil => simp [here] at stands
    | cons c s =>
      by_cases equals : c = '='
      · rintro a ⟨⟩
        · exact ⟨c, List.mem_cons_self, by rw [equals]; rfl⟩
        · contradiction
      · simp [here, equals] at stands
  | word ws =>
    obtain ⟨w, listed, found⟩ := List.any_eq_true.1 stands
    rw [wordHere, Bool.and_eq_true, Bool.and_eq_true] at found
    exact ⟨w, listed, taken found.1.1⟩
  | fragment fs =>
    obtain ⟨f, listed, found⟩ := List.any_eq_true.1 stands
    exact ⟨f, listed, taken found⟩
  | either p q ihLeft ihRight =>
    rw [here, Bool.or_eq_true] at stands
    rcases stands with left | right
    · obtain ⟨w, listed, taken⟩ := ihLeft left
      exact ⟨w, List.mem_append_left _ listed, taken⟩
    · obtain ⟨w, listed, taken⟩ := ihRight right
      exact ⟨w, List.mem_append_right _ listed, taken⟩

/-- A pattern that occurs stands somewhere in the text. -/
theorem here_of_occursAfter (occurs : p.occursAfter before s = true) :
    ∃ a b, s = a ++ b ∧ b ≠ [] ∧ p.here (a.getLast?.or before) b = true := by
  induction s generalizing before with
  | nil => cases occurs
  | cons c s ih =>
    rw [occursAfter, Bool.or_eq_true] at occurs
    rcases occurs with stands | later
    · exact ⟨[], c :: s, rfl, List.cons_ne_nil c s, stands⟩
    · obtain ⟨a, b, rfl, filled, stands⟩ := ih later
      refine ⟨c :: a, b, rfl, filled, ?_⟩
      rw [List.getLast?_cons]
      cases shape : a.getLast? <;> simpa [shape] using stands

theorem here_of_occurs (occurs : p.occurs s = true) :
    ∃ a b, s = a ++ b ∧ b ≠ [] ∧ p.here a.getLast? b = true := by
  obtain ⟨a, b, rfl, filled, stands⟩ := here_of_occursAfter occurs
  exact ⟨a, b, rfl, filled, by rwa [Option.or_none] at stands⟩

theorem spelled_of_occurs (occurs : p.occurs s = true) :
    ∃ w ∈ p.spelled, ∀ a ∈ w, ∃ c ∈ s, sameLetter a c = true := by
  obtain ⟨x, y, rfl, _, stands⟩ := here_of_occurs occurs
  obtain ⟨w, listed, taken⟩ := spelled_of_here stands
  refine ⟨w, listed, fun a inside => ?_⟩
  obtain ⟨c, member, same⟩ := taken a inside
  exact ⟨c, List.mem_append_right x member, same⟩

/-- No pattern occurs in blanks. -/
theorem occurs_blank (regular : p.Regular) (blank : ∀ c ∈ s, Text.isBlank c = true) :
    p.occurs s = false := by
  refine eq_false_of_ne_true fun occurs => ?_
  obtain ⟨w, listed, taken⟩ := spelled_of_occurs occurs
  obtain ⟨filled, visible⟩ := regular.spelled w listed
  obtain ⟨a, w, rfl⟩ := List.exists_cons_of_ne_nil filled
  obtain ⟨c, inside, same⟩ := taken a List.mem_cons_self
  obtain ⟨low, high⟩ := visible a List.mem_cons_self
  have blank := blank c inside
  cases alpha : a.isAlpha with
  | true =>
    have word := Text.isWord_of_sameLetter (by simp [isLetter, Char.isAlphanum, alpha]) same
    cases word.symm.trans (Text.isWord_of_isBlank blank)
  | false =>
    rw [Text.eq_of_sameLetter (by omega) alpha same, Text.isBlank_of_range low high] at blank
    cases blank

end Pattern

theorem Rule.first?_eq_none {rules : List Rule} {s : Text} :
    Rule.first? rules s = none ↔ ∀ rule ∈ rules, rule.applies s = false := by
  simp [Rule.first?]

/-- A text passes some rules exactly if its parts do. -/
theorem Rule.first?_append {rules : List Rule} (regular : ∀ rule ∈ rules, rule.pattern.Regular)
    {a b : Text} (apart : ∀ x ∈ a.getLast?, ∀ y ∈ b.head?, SetApart x y) :
    Rule.first? rules (a ++ b) = none ↔
      Rule.first? rules a = none ∧ Rule.first? rules b = none := by
  simp only [Rule.first?_eq_none, ← forall₂_and]
  refine forall₂_congr fun rule listed => ?_
  rw [Rule.applies, Pattern.occurs_append (regular rule listed) apart, Bool.or_eq_false_iff]
  rfl

theorem Rule.first?_blank {rules : List Rule} {s : Text}
    (regular : ∀ rule ∈ rules, rule.pattern.Regular)
    (blank : ∀ c ∈ s, Text.isBlank c = true) : Rule.first? rules s = none :=
  Rule.first?_eq_none.2 fun rule listed => Pattern.occurs_blank (regular rule listed) blank

/-- A blank is apart from everything. -/
theorem setApart_blank_left {x y : Char} (blank : Text.isBlank x = true) : SetApart x y where
  word := .inl (Text.isWord_of_isBlank blank)
  equals := by
    intro comparison
    simp only [Pattern.isComparison, Bool.or_eq_true, beq_iff_eq] at comparison
    rcases comparison with ((rfl | rfl) | rfl) | rfl <;> cases blank
  pair := by
    intro _ mark
    cases (pairedMarks_ascii x mark).2.2.2.symm.trans blank

theorem setApart_blank_right {x y : Char} (blank : Text.isBlank y = true) : SetApart x y where
  word := .inr (Text.isWord_of_isBlank blank)
  equals := by
    rintro _ rfl
    cases blank
  pair := by
    rintro rfl
    exact (setApart_blank_left blank (y := x)).pair rfl

theorem denylist_regular : ∀ rule ∈ denylist, rule.pattern.Regular := by decide

end BranchGate
