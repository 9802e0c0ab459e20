import BranchGate.Proofs.Rule.Names

/-! What the rules find, said without a search. A word is found where it is a whole run of word
characters, a fragment anywhere, and an assignment where an equals sign stands alone. -/
namespace BranchGate

namespace Text

/-- Between `a` and `b` stands a run of characters of a class that goes on neither way. -/
structure Run (p : Char → Bool) (a n b : Text) : Prop where
  filled : n ≠ []
  inside : ∀ c ∈ n, p c = true
  left : ∀ c ∈ a.getLast?, p c = false
  right : ∀ c ∈ b.head?, p c = false

instance (p : Char → Bool) (a n b : Text) : Decidable (Run p a n b) :=
  have : Decidable (∀ c ∈ n, p c = true) := List.decidableBAll _ n
  have (o : Option Char) : Decidable (∀ c ∈ o, p c = false) := Option.decidableForallMem o
  decidable_of_iff (n ≠ [] ∧ (∀ c ∈ n, p c = true) ∧ (∀ c ∈ a.getLast?, p c = false) ∧
      ∀ c ∈ b.head?, p c = false)
    ⟨fun ⟨filled, inside, left, right⟩ => ⟨filled, inside, left, right⟩,
      fun ⟨filled, inside, left, right⟩ => ⟨filled, inside, left, right⟩⟩

section Run

variable {p : Char → Bool} {a n b : Text}

theorem Run.ends {more : Text} (run : Run p a n (more ++ b)) (inside : ∀ c ∈ more, p c = true) :
    more = [] := by
  cases more with
  | nil => rfl
  | cons c more =>
    have outside := run.right c rfl
    cases outside.symm.trans (inside c List.mem_cons_self)

/-- A run that begins inside another is the other. -/
theorem Run.meets {x m b' : Text} (run : Run p a n b) (run' : Run p (a ++ x) m b')
    (whole : n ++ b = x ++ (m ++ b')) (early : x.length < n.length) : x = [] ∧ m = n := by
  have start : x = [] := by
    rcases List.eq_nil_or_concat' x with nil | ⟨init, c, rfl⟩
    · exact nil
    · have taken : init ++ [c] <+: n :=
        List.prefix_of_prefix_length_le ⟨_, whole.symm⟩ (List.prefix_append n b) early.le
      have inside := run.inside c (taken.subset (by simp))
      have outside := run'.left c (by simp)
      cases outside.symm.trans inside
  subst start
  refine ⟨rfl, ?_⟩
  rw [List.nil_append] at whole
  rcases List.append_eq_append_iff.1 whole with ⟨more, rfl, rfl⟩ | ⟨more, rfl, rfl⟩
  · rw [run.ends fun c next => run'.inside c (List.mem_append_right n next), List.append_nil]
  · rw [run'.ends fun c next => run.inside c (List.mem_append_right m next), List.append_nil]

end Run

/-- Characters outside ASCII that are taken for a letter, with the letter. -/
def letterVariants : List (Char × Char) :=
  [('i', '\u0131'), ('i', '\u0130'), ('s', '\u017F'), ('k', '\u212A')]

/-- A word and a text that is taken for it: its letters in either case, or variants of them. -/
def AnyCase (w n : Text) : Prop :=
  List.Forall₂ (fun a c => c.toLower = a.toLower ∨ (a.toLower, c) ∈ letterVariants) w n

instance (w n : Text) : Decidable (AnyCase w n) :=
  inferInstanceAs (Decidable (List.Forall₂ _ w n))

theorem sameLetter_iff {a c : Char} (ascii : a.toNat < 128) :
    sameLetter a c = true ↔ c.toLower = a.toLower ∨ (a.toLower, c) ∈ letterVariants := by
  constructor
  · intro same
    rw [sameLetter, beq_iff_eq, fold_of_ascii ascii] at same
    rw [same]
    unfold fold
    split
    next dotted => right; rcases dotted with rfl | rfl <;> decide
    next =>
      split
      next long => right; rw [long]; decide
      next =>
        split
        next kelvin => right; rw [kelvin]; decide
        next => exact .inl rfl
  · rintro (same | variant)
    · exact sameLetter_of_toLower same.symm
    · rw [sameLetter, beq_iff_eq, fold_of_ascii ascii]
      have all : ∀ v ∈ letterVariants, v.1 = fold v.2 := by decide
      exact all _ variant

theorem anyCase_iff {w n : Text} (ascii : ∀ a ∈ w, a.toNat < 128) :
    AnyCase w n ↔ List.Forall₂ (fun a c => sameLetter a c = true) w n := by
  constructor
  · intro taken
    have both := (List.forall₂_and_left w n).2 ⟨ascii, taken⟩
    exact both.imp fun a c ⟨ascii, taken⟩ => (sameLetter_iff ascii).2 taken
  · intro same
    have both := (List.forall₂_and_left w n).2 ⟨ascii, same⟩
    exact both.imp fun a c ⟨ascii, same⟩ => (sameLetter_iff ascii).1 same

theorem startsCaseless_iff_anyCase {w s : Text} (ascii : ∀ a ∈ w, a.toNat < 128) :
    startsCaseless w s = true ↔ ∃ n b, s = n ++ b ∧ AnyCase w n := by
  simp only [startsCaseless_iff, anyCase_iff ascii]

/-- Some run of word characters in the text is taken for the word. -/
def HasWord (w t : Text) : Prop := ∃ a n b, t = a ++ (n ++ b) ∧ Run isWord a n b ∧ AnyCase w n

/-- Some part of the text, inside a word or not, is taken for the fragment. -/
def HasPart (f t : Text) : Prop := ∃ n, n <:+: t ∧ AnyCase f n

/-- Between `a` and `b` an equals sign stands alone, and makes no comparison with what is before. -/
structure LoneEquals (a b : Text) : Prop where
  run : Run (· == '=') a ['='] b
  left : ∀ c ∈ a.getLast?, c ∉ ['!', '<', '>']

instance (a b : Text) : Decidable (LoneEquals a b) :=
  have : Decidable (∀ c ∈ a.getLast?, c ∉ ['!', '<', '>']) := Option.decidableForallMem _
  decidable_of_iff (Run (· == '=') a ['='] b ∧ ∀ c ∈ a.getLast?, c ∉ ['!', '<', '>'])
    ⟨fun ⟨run, left⟩ => ⟨run, left⟩, fun ⟨run, left⟩ => ⟨run, left⟩⟩

end Text

open Text (Run HasWord HasPart LoneEquals isWord isLetter)

namespace Pattern

variable {p q : Pattern} {a b s t w f : Text} {ws fs : List Text}

theorem Regular.ascii (regular : p.Regular) (listed : w ∈ p.spelled) : ∀ c ∈ w, c.toNat < 128 := by
  intro c inside
  have visible := (regular.spelled w listed).2 c inside
  omega

theorem occurs_iff_here :
    p.occurs t = true ↔ ∃ a s, t = a ++ s ∧ s ≠ [] ∧ p.here a.getLast? s = true := by
  constructor
  · exact here_of_occurs
  · rintro ⟨a, s, rfl, filled, stands⟩
    exact occurs_of_here filled stands

theorem occurs_either : (either p q).occurs t = true ↔ p.occurs t = true ∨ q.occurs t = true := by
  simp only [occurs_iff_here, here, Bool.or_eq_true]
  constructor
  · rintro ⟨a, s, split, filled, left | right⟩
    · exact .inl ⟨a, s, split, filled, left⟩
    · exact .inr ⟨a, s, split, filled, right⟩
  · rintro (⟨a, s, split, filled, left⟩ | ⟨a, s, split, filled, right⟩)
    · exact ⟨a, s, split, filled, .inl left⟩
    · exact ⟨a, s, split, filled, .inr right⟩

/-- A word is found at the head of a text where it is a whole run. -/
theorem wordHere_iff (filled : w ≠ []) (letters : ∀ c ∈ w, isLetter c = true)
    (ascii : ∀ c ∈ w, c.toNat < 128) : wordHere w a.getLast? s = true ↔
      ∃ n b, s = n ++ b ∧ Run isWord a n b ∧ Text.AnyCase w n := by
  simp only [wordHere, Bool.and_eq_true, Bool.not_eq_true', Option.any_eq_false]
  constructor
  · rintro ⟨⟨starts, left⟩, right⟩
    obtain ⟨n, b, rfl, same⟩ := Text.startsCaseless_iff.1 starts
    rw [same.length_eq, List.drop_left] at right
    have present : n ≠ [] := by
      rintro rfl
      exact filled (List.forall₂_nil_right_iff.1 same)
    exact ⟨n, b, rfl, ⟨present, word_of_letters letters same, left, right⟩,
      (Text.anyCase_iff ascii).2 same⟩
  · rintro ⟨n, b, rfl, run, taken⟩
    have same := (Text.anyCase_iff ascii).1 taken
    rw [same.length_eq, List.drop_left]
    exact ⟨⟨Text.startsCaseless_iff.2 ⟨n, b, rfl, same⟩, run.left⟩, run.right⟩

theorem isComparison_eq_false {c : Char} :
    isComparison c = false ↔ (c == '=') = false ∧ c ∉ ['!', '<', '>'] := by
  simp [isComparison, and_assoc]

theorem loneEquals_iff : LoneEquals a b ↔
    (∀ c ∈ a.getLast?, isComparison c = false) ∧ ∀ c ∈ b.head?, (c == '=') = false := by
  simp only [isComparison_eq_false, forall₂_and]
  constructor
  · intro lone
    exact ⟨⟨lone.run.left, lone.left⟩, lone.run.right⟩
  · rintro ⟨⟨apart, left⟩, right⟩
    exact ⟨⟨List.cons_ne_nil '=' [], by simp, apart, right⟩, left⟩

theorem here_assignment_iff :
    assignment.here a.getLast? s = true ↔ ∃ b, s = '=' :: b ∧ LoneEquals a b := by
  cases s with
  | nil => simp [here]
  | cons c b =>
    by_cases equals : c = '='
    · subst equals
      have before : (!a.getLast?.any isComparison) = true ↔
          ∀ c ∈ a.getLast?, isComparison c = false := by
        cases a.getLast? <;> simp
      have after : (b.head? != some '=') = true ↔ ∀ c ∈ b.head?, (c == '=') = false := by
        cases b <;> simp
      rw [here, Bool.and_eq_true, before, after, ← loneEquals_iff]
      constructor
      · exact fun lone => ⟨b, rfl, lone⟩
      · rintro ⟨_, ⟨⟩, lone⟩
        exact lone
    · simp [here, equals]

theorem occurs_assignment : assignment.occurs t = true ↔ ∃ a b, t = a ++ '=' :: b ∧ LoneEquals a b := by
  simp only [occurs_iff_here, here_assignment_iff]
  constructor
  · rintro ⟨a, _, rfl, _, b, rfl, lone⟩
    exact ⟨a, b, rfl, lone⟩
  · rintro ⟨a, b, rfl, lone⟩
    exact ⟨a, _, rfl, List.cons_ne_nil '=' b, b, rfl, lone⟩

theorem occurs_word (regular : (word ws).Regular) :
    (word ws).occurs t = true ↔ ∃ w ∈ ws, HasWord w t := by
  have found (w : Text) (listed : w ∈ ws) (a s : Text) := wordHere_iff (a := a) (s := s)
    (regular.spelled w listed).1 (regular.words w listed) (regular.ascii listed)
  simp only [occurs_iff_here, here, List.any_eq_true]
  constructor
  · rintro ⟨a, s, rfl, _, w, listed, stands⟩
    obtain ⟨n, b, rfl, run, taken⟩ := (found w listed a s).1 stands
    exact ⟨w, listed, a, n, b, rfl, run, taken⟩
  · rintro ⟨w, listed, a, n, b, rfl, run, taken⟩
    exact ⟨a, n ++ b, rfl, List.append_ne_nil_of_left_ne_nil run.filled b, w, listed,
      (found w listed a _).2 ⟨n, b, rfl, run, taken⟩⟩

theorem occurs_fragment (regular : (fragment fs).Regular) :
    (fragment fs).occurs t = true ↔ ∃ f ∈ fs, HasPart f t := by
  simp only [occurs_iff_here, here, List.any_eq_true]
  constructor
  · rintro ⟨a, s, rfl, _, f, listed, starts⟩
    obtain ⟨n, b, rfl, taken⟩ :=
      (Text.startsCaseless_iff_anyCase (regular.ascii listed)).1 starts
    exact ⟨f, listed, n, ⟨a, b, List.append_assoc a n b⟩, taken⟩
  · rintro ⟨f, listed, n, ⟨a, b, rfl⟩, taken⟩
    have present : n ≠ [] := by
      rintro rfl
      exact (regular.spelled f listed).1 (List.forall₂_nil_right_iff.1 taken)
    exact ⟨a, n ++ b, List.append_assoc a n b, List.append_ne_nil_of_left_ne_nil present b, f,
      listed, (Text.startsCaseless_iff_anyCase (regular.ascii listed)).2 ⟨n, b, rfl, taken⟩⟩

/-- In a longer run of equals signs none stands alone. -/
theorem here_in_long_run {n x y : Text} (run : Run (· == '=') a n b) (long : 2 ≤ n.length)
    (split : n = x ++ y) (within : y ≠ []) :
    assignment.here (a ++ x).getLast? (y ++ b) = false := by
  refine eq_false_of_ne_true fun stands => ?_
  obtain ⟨b', rest, lone⟩ := here_assignment_iff.1 stands
  have early : x.length < n.length := by
    have := List.length_pos_of_ne_nil within
    rw [split, List.length_append]
    omega
  have whole : n ++ b = x ++ (['='] ++ b') := by rw [split, List.append_assoc, rest]; rfl
  obtain ⟨_, single⟩ := run.meets lone.run whole early
  rw [← single] at long
  exact absurd long (by decide)

end Pattern

theorem keywordRules_regular : ∀ rule ∈ keywordRules, rule.pattern.Regular := by decide

/-- The rules for words look for nothing else, `proto` and its keyword apart. -/
theorem word_patterns : ∀ rule ∈ wordRules ++ keywordRules, rule.code ≠ "proto" →
    rule.code ≠ "kw.__proto__" → rule.pattern = .word rule.pattern.words := by decide

theorem regular_of_mem {rule : Rule} (listed : rule ∈ wordRules ++ keywordRules) :
    rule.pattern.Regular := by
  rcases List.mem_append.1 listed with denied | keyword
  · exact wordRules_regular rule denied
  · exact keywordRules_regular rule keyword

/-- A rule for words applies exactly if one of its words is a whole run of word characters, in any
case; only `__proto__` is found inside other words too. -/
theorem keywords_found_whole (t : Text) :
    (∀ rule ∈ wordRules ++ keywordRules, rule.code ≠ "proto" → rule.code ≠ "kw.__proto__" →
      (rule.applies t = true ↔ ∃ w ∈ rule.pattern.words, HasWord w t)) ∧
    (∀ rule ∈ denylist, rule.code = "proto" → (rule.applies t = true ↔
      HasPart "__proto__" t ∨ ∃ w ∈ (["constructor", "prototype"] : List Text), HasWord w t)) ∧
    ∀ rule ∈ keywordRules, rule.code = "kw.__proto__" →
      (rule.applies t = true ↔ HasPart "__proto__" t) := by
  have fragment : (Pattern.fragment ["__proto__"]).Regular := by decide
  have found : (Pattern.fragment ["__proto__"]).occurs t = true ↔ HasPart "__proto__" t := by
    simp only [Pattern.occurs_fragment fragment, List.mem_singleton, exists_eq_left]
  refine ⟨fun rule listed other other' => ?_, fun rule listed code => ?_, fun rule listed code => ?_⟩
  · have shape := word_patterns rule listed other other'
    have regular := regular_of_mem listed
    rw [shape] at regular
    rw [Rule.applies, ← Pattern.occurs_word regular, ← shape]
  · have shape : ∀ rule ∈ denylist, rule.code = "proto" →
        rule.pattern = .either (.fragment ["__proto__"]) (.word ["constructor", "prototype"]) := by
      decide
    have words : (Pattern.word ["constructor", "prototype"]).Regular := by decide
    rw [Rule.applies, shape rule listed code, Pattern.occurs_either, found,
      Pattern.occurs_word words]
  · have shape : ∀ rule ∈ keywordRules, rule.code = "kw.__proto__" →
        rule.pattern = .fragment ["__proto__"] := by decide
    rw [Rule.applies, shape rule listed code, found]

/-- A dotless i, a word that ends at a bracket, and `__proto__` inside a longer one. -/
theorem keywords_found_whole_dotless :
    (Rule.keyword "import" ∈ wordRules ++ keywordRules ∧
      (Rule.keyword "import").code ≠ "proto" ∧ (Rule.keyword "import").code ≠ "kw.__proto__" ∧
      (Rule.keyword "import").applies ("x__Proto__.\u0131mporT(y)" : String).toList = true) ∧
    (∃ rule ∈ denylist, rule.code = "proto" ∧
      rule.applies ("x__Proto__.\u0131mporT(y)" : String).toList = true) ∧
    Rule.keyword "__proto__" ∈ keywordRules ∧ (Rule.keyword "__proto__").code = "kw.__proto__" ∧
      (Rule.keyword "__proto__").applies ("x__Proto__.\u0131mporT(y)" : String).toList = true := by
  obtain ⟨words, proto, keyword⟩ :=
    keywords_found_whole ("x__Proto__.\u0131mporT(y)" : String).toList
  have word : HasWord "import" ("x__Proto__.\u0131mporT(y)" : String).toList :=
    ⟨"x__Proto__.", "\u0131mporT", "(y)", by decide +kernel, by decide +kernel, by decide +kernel⟩
  have part : HasPart "__proto__" ("x__Proto__.\u0131mporT(y)" : String).toList :=
    ⟨"__Proto__", by decide +kernel, by decide +kernel⟩
  have listed : Rule.keyword "import" ∈ wordRules ++ keywordRules := by decide +kernel
  have other : (Rule.keyword "import").code ≠ "proto" ∧
      (Rule.keyword "import").code ≠ "kw.__proto__" := by decide +kernel
  have denied : Rule.disallow "proto" (.either (.fragment ["__proto__"])
      (.word ["constructor", "prototype"])) "prototype access" ∈ denylist := by decide +kernel
  have listed' : Rule.keyword "__proto__" ∈ keywordRules := by decide +kernel
  have code' : (Rule.keyword "__proto__").code = "kw.__proto__" := by decide +kernel
  refine ⟨⟨listed, other.1, other.2, ?_⟩, ⟨_, denied, rfl, ?_⟩, listed', code', ?_⟩
  · exact (words _ listed other.1 other.2).2 ⟨"import", List.mem_singleton_self _, word⟩
  · exact (proto _ denied rfl).2 (.inl part)
  · exact (keyword _ listed' code').2 part

/-- The rule for assignments applies exactly where an equals sign stands alone, with no `!`, `<` or
`>` right before it; it matches nowhere in a longer run of equals signs, whatever surrounds that. -/
theorem assignment_stands_alone (t : Text) : ∀ rule ∈ denylist, rule.code = "assign" →
    (rule.applies t = true ↔ ∃ a b, t = a ++ '=' :: b ∧ LoneEquals a b) ∧
    ∀ a n b, Run (· == '=') a n b → 2 ≤ n.length → ∀ x y, n = x ++ y → y ≠ [] →
      rule.pattern.here (a ++ x).getLast? (y ++ b) = false := by
  intro rule listed code
  have shape : ∀ rule ∈ denylist, rule.code = "assign" → rule.pattern = .assignment := by decide
  rw [Rule.applies, shape rule listed code]
  refine ⟨Pattern.occurs_assignment, fun a n b run long x y split within => ?_⟩
  exact Pattern.here_in_long_run run long split within

/-- An arrow is an assignment, and the comparison before it is none. -/
theorem assignment_stands_alone_arrow :
    ∃ rule ∈ denylist, rule.code = "assign" ∧
      rule.applies ("x!==y=>z" : String).toList = true ∧
      rule.pattern.here ("x!=" : String).toList.getLast? ("=y=>z" : String).toList = false := by
  have listed : Rule.disallow "assign" .assignment "assignment" ∈ denylist := by decide +kernel
  have lone : LoneEquals ("x!==y" : String).toList (">z" : String).toList := by decide +kernel
  have run : Run (· == '=') ("x!" : String).toList ("==" : String).toList
      ("y=>z" : String).toList := by decide +kernel
  obtain ⟨applies, misses⟩ := assignment_stands_alone ("x!==y=>z" : String).toList _ listed rfl
  refine ⟨_, listed, rfl, applies.2 ⟨_, _, by decide +kernel, lone⟩, ?_⟩
  exact misses _ _ _ run (by decide) ['='] ['='] rfl (List.cons_ne_nil _ _)

end BranchGate
