import BranchGate.Proofs.Text.Classes
import BranchGate.Rule.Table

/-! What a passed denylist says about the words of a text: none of them is denied, in any ASCII
case, and no fragment that stands inside a word is. -/
namespace BranchGate

namespace Text

theorem toLower_cases (c : Char) :
    c.toLower = c ∨ (65 ≤ c.toNat ∧ c.toNat ≤ 90 ∧ c.toLower.toNat = c.toNat + 32) := by
  unfold Char.toLower
  split
  next upper =>
    have low : 65 ≤ c.toNat := UInt32.le_iff_toNat_le.1 upper.1
    have high : c.toNat ≤ 90 := UInt32.le_iff_toNat_le.1 upper.2
    refine .inr ⟨low, high, ?_⟩
    have sum : (c.val + 32).toNat = (c.toNat + 32) % 2 ^ 32 := UInt32.toNat_add c.val 32
    exact sum.trans (Nat.mod_eq_of_lt (by omega))
  next => exact .inl rfl

theorem fold_of_ascii {c : Char} (ascii : c.toNat < 128) : fold c = c.toLower := by
  have other (special : Char) (high : 128 ≤ special.toNat) : c ≠ special := by
    rintro rfl
    omega
  simp [fold, other '\u0131' (by decide), other '\u0130' (by decide), other '\u017F' (by decide),
    other '\u212A' (by decide)]

/-- Letters that are equal in ASCII case are equal to the rules. -/
theorem sameLetter_of_toLower {a b : Char} (same : a.toLower = b.toLower) :
    sameLetter a b = true := by
  rw [sameLetter, beq_iff_eq]
  -- Outside ASCII lower case changes nothing, so different letters with one lower case are ASCII.
  by_cases equal : a = b
  · rw [equal]
  · have ascii : a.toNat < 128 ∧ b.toNat < 128 := by
      have number := congrArg Char.toNat same
      rcases toLower_cases a with ha | ha <;> rcases toLower_cases b with hb | hb
      · exact absurd (ha.symm.trans (same.trans hb)) equal
      · rw [ha] at number; omega
      · rw [hb] at number; omega
      · omega
    rw [fold_of_ascii ascii.1, fold_of_ascii ascii.2, same]

theorem startsCaseless_of_toLower {w n : Text} (same : n.map Char.toLower = w.map Char.toLower)
    (rest : Text) : startsCaseless w (n ++ rest) = true := by
  induction w generalizing n with
  | nil => rfl
  | cons c w ih =>
    obtain ⟨d, n, rfl, head, tail⟩ := List.map_eq_cons_iff.1 same
    rw [List.cons_append, startsCaseless, sameLetter_of_toLower head.symm, ih tail]
    rfl

end Text

namespace Pattern

/-- The words that a pattern looks for. -/
def words : Pattern → List Text
  | .word ws => ws
  | .either p q => p.words ++ q.words
  | .assignment | .fragment _ => []

/-- The fragments that a pattern looks for inside words too. -/
def fragments : Pattern → List Text
  | .fragment fs => fs
  | .either p q => p.fragments ++ q.fragments
  | .assignment | .word _ => []

theorem here_of_word {p : Pattern} {w : Text} {before : Option Char} {s : Text}
    (listed : w ∈ p.words) (stands : wordHere w before s = true) : p.here before s = true := by
  induction p with
  | assignment | fragment => cases listed
  | word ws => exact List.any_eq_true.2 ⟨w, listed, stands⟩
  | either p q ihLeft ihRight =>
    rw [here, Bool.or_eq_true]
    exact (List.mem_append.1 listed).imp ihLeft ihRight

theorem here_of_fragment {p : Pattern} {f : Text} {before : Option Char} {s : Text}
    (listed : f ∈ p.fragments) (stands : Text.startsCaseless f s = true) :
    p.here before s = true := by
  induction p with
  | assignment | word => cases listed
  | fragment fs => exact List.any_eq_true.2 ⟨f, listed, stands⟩
  | either p q ihLeft ihRight =>
    rw [here, Bool.or_eq_true]
    exact (List.mem_append.1 listed).imp ihLeft ihRight

theorem occursAfter_of_here {p : Pattern} {before : Option Char} {a b : Text} (filled : b ≠ [])
    (stands : p.here (a.getLast?.or before) b = true) : p.occursAfter before (a ++ b) = true := by
  induction a generalizing before with
  | nil =>
    cases b with
    | nil => exact absurd rfl filled
    | cons c rest =>
      rw [List.nil_append, occursAfter, Bool.or_eq_true]
      exact .inl stands
  | cons c a ih =>
    rw [List.cons_append, occursAfter, Bool.or_eq_true]
    refine .inr (ih ?_)
    rw [List.getLast?_cons] at stands
    cases last : a.getLast? with
    | none => simpa [last] using stands
    | some d => simpa [last] using stands

theorem occurs_of_here {p : Pattern} {a b : Text} (filled : b ≠ [])
    (stands : p.here a.getLast? b = true) : p.occurs (a ++ b) = true :=
  occursAfter_of_here filled (by rwa [Option.or_none])

theorem wordHere_of_toLower {w n rest : Text} {before : Option Char}
    (same : n.map Char.toLower = w.map Char.toLower) (left : ∀ c ∈ before, Text.isWord c = false)
    (right : ∀ c ∈ rest.head?, Text.isWord c = false) : wordHere w before (n ++ rest) = true := by
  have length : n.length = w.length := by simpa using congrArg List.length same
  rw [wordHere, Text.startsCaseless_of_toLower same, ← length, List.drop_left]
  cases before <;> cases rest <;> simp_all

end Pattern

/-- The words that the denylist looks for. -/
def deniedWords : List Text := denylist.flatMap fun rule => rule.pattern.words

example : deniedWords = (["eval", "Function", "import", "require", "new", "while", "for", "do",
    "switch", "try", "catch", "finally", "throw", "return", "process", "global", "globalThis",
    "window", "document", "constructor", "prototype"] : List Text) := by decide

theorem deniedWords_ne_nil : ∀ w ∈ deniedWords, w ≠ [] := by decide

/-- A name or key that the denylist has a word for, or a part of, in any ASCII case. -/
def IsDenied (name : Text) : Prop :=
  ("__proto__" : String).toList <:+: name.map Char.toLower ∨
    ∃ w ∈ deniedWords, name.map Char.toLower = w.map Char.toLower

theorem not_occurs_of_first? {rules : List Rule} {s : Text} (passes : Rule.first? rules s = none) :
    ∀ rule ∈ rules, rule.pattern.occurs s = false := by
  intro rule listed
  simpa [Rule.applies] using List.find?_eq_none.1 passes rule listed

/-- Nothing denied stands in a text that passes, set off by characters of no word. -/
theorem not_isDenied {a n b : Text} (passes : Rule.first? denylist (a ++ (n ++ b)) = none)
    (left : ∀ c ∈ a.getLast?, Text.isWord c = false)
    (right : ∀ c ∈ b.head?, Text.isWord c = false) : ¬IsDenied n := by
  have misses := not_occurs_of_first? passes
  rintro (⟨x, y, part⟩ | ⟨w, denied, same⟩)
  · obtain ⟨_, n₃, rfl, part, _⟩ := List.map_eq_append_iff.1 part.symm
    obtain ⟨n₁, n₂, rfl, _, same⟩ := List.map_eq_append_iff.1 part
    obtain ⟨rule, member, listed⟩ : ∃ rule ∈ denylist,
        ("__proto__" : String).toList ∈ rule.pattern.fragments := by decide
    have filled : n₂ ++ (n₃ ++ b) ≠ [] := by
      have some : n₂ ≠ [] := by rintro rfl; cases same
      exact List.append_ne_nil_of_left_ne_nil some _
    have found := Pattern.occurs_of_here (a := a ++ n₁) filled
      (Pattern.here_of_fragment listed (Text.startsCaseless_of_toLower same (n₃ ++ b)))
    rw [show a ++ n₁ ++ (n₂ ++ (n₃ ++ b)) = a ++ (n₁ ++ n₂ ++ n₃ ++ b) by simp,
      misses rule member] at found
    cases found
  · obtain ⟨rule, member, listed⟩ := List.mem_flatMap.1 denied
    have filled : n ++ b ≠ [] := by
      have some : w ≠ [] := deniedWords_ne_nil w denied
      refine List.append_ne_nil_of_left_ne_nil ?_ _
      rintro rfl
      exact some (List.map_eq_nil_iff.1 same.symm)
    have found := Pattern.occurs_of_here filled
      (Pattern.here_of_word listed (Pattern.wordHere_of_toLower same left right))
    rw [misses rule member] at found
    cases found

end BranchGate
