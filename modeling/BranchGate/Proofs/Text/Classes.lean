import BranchGate.Text.Quote
import BranchGate.Text.Word
import BranchGate.Token

/-! How the character classes of the condition language lie to each other. Names and digits are
ink, apart from layout, quotes and marks; none of the latter is a word character. -/
namespace BranchGate.Text

theorem isDigit_range {c : Char} (digit : c.isDigit = true) : 48 ≤ c.toNat ∧ c.toNat ≤ 57 := by
  simp only [Char.isDigit, Bool.and_eq_true, decide_eq_true_eq, ge_iff_le,
    UInt32.le_iff_toNat_le] at digit
  exact digit

theorem isUpper_range {c : Char} (upper : c.isUpper = true) : 65 ≤ c.toNat ∧ c.toNat ≤ 90 := by
  change decide (c.val ≥ 'A'.val ∧ c.val ≤ 'Z'.val) = true at upper
  obtain ⟨low, high⟩ := of_decide_eq_true upper
  exact ⟨UInt32.le_iff_toNat_le.1 low, UInt32.le_iff_toNat_le.1 high⟩

theorem isLower_range {c : Char} (lower : c.isLower = true) : 97 ≤ c.toNat ∧ c.toNat ≤ 122 := by
  change (decide (c.val ≥ 'a'.val) && decide (c.val ≤ 'z'.val)) = true at lower
  obtain ⟨low, high⟩ := Bool.and_eq_true_iff.1 lower
  exact ⟨UInt32.le_iff_toNat_le.1 (of_decide_eq_true low),
    UInt32.le_iff_toNat_le.1 (of_decide_eq_true high)⟩

theorem isNameStart_range {c : Char} (start : isNameStart c = true) :
    c.toNat = 36 ∨ (65 ≤ c.toNat ∧ c.toNat ≤ 90) ∨ c.toNat = 95 ∨
      (97 ≤ c.toNat ∧ c.toNat ≤ 122) := by
  simp only [isNameStart, Bool.or_eq_true, beq_iff_eq] at start
  rcases start with (alpha | rfl) | rfl
  · rcases Bool.or_eq_true_iff.1 alpha with upper | lower
    · exact .inr (.inl (isUpper_range upper))
    · exact .inr (.inr (.inr (isLower_range lower)))
  · exact .inr (.inr (.inl rfl))
  · exact .inl rfl

theorem isNameChar_of_isNameStart {c : Char} (start : isNameStart c = true) :
    isNameChar c = true := by
  simp [isNameChar, start]

theorem isNameChar_of_isDigit {c : Char} (digit : c.isDigit = true) : isNameChar c = true := by
  simp [isNameChar, digit]

theorem isNameStart_of_isDigit {c : Char} (digit : c.isDigit = true) : isNameStart c = false := by
  cases start : isNameStart c with
  | false => rfl
  | true =>
    have low := isDigit_range digit
    have high := isNameStart_range start
    omega

theorem isNameChar_of_mem {n : Text} {c : Char} (named : isName n = true) (inside : c ∈ n) :
    isNameChar c = true := by
  cases n with
  | nil => cases inside
  | cons first rest =>
    simp only [isName, Bool.and_eq_true, List.all_eq_true] at named
    rcases List.mem_cons.1 inside with rfl | inside
    · exact isNameChar_of_isNameStart named.1
    · exact named.2 c inside

theorem isNameChar_range {c : Char} (inner : isNameChar c = true) :
    36 ≤ c.toNat ∧ c.toNat ≤ 122 ∧ c.toNat ≠ 39 := by
  simp only [isNameChar, Bool.or_eq_true] at inner
  rcases inner with start | digit
  · have := isNameStart_range start; omega
  · have := isDigit_range digit; omega

/-- Visible ASCII characters are not blank. -/
theorem isBlank_of_range {c : Char} (low : 33 ≤ c.toNat) (high : c.toNat ≤ 126) :
    isBlank c = false := by
  simp only [isBlank, Bool.or_eq_false_iff, Bool.and_eq_false_iff, decide_eq_false_iff_not,
    beq_eq_false_iff_ne]
  omega

theorem isBlank_of_isNameChar {c : Char} (inner : isNameChar c = true) : isBlank c = false := by
  have := isNameChar_range inner
  exact isBlank_of_range (by omega) (by omega)

theorem isBlank_quote (q : Quote) : isBlank q.char = false := by cases q <;> decide

theorem isNameChar_quote (q : Quote) : isNameChar q.char = false := by cases q <;> decide

theorem isDigit_quote (q : Quote) : q.char.isDigit = false := by cases q <;> decide

theorem isWord_quote (q : Quote) : isWord q.char = false := by cases q <;> decide

theorem layout_cases {c : Char} (layout : isLayout c = true) :
    c = ' ' ∨ c = '\t' ∨ c = '\r' ∨ c = '\n' := by
  simpa [isLayout, or_assoc] using layout

theorem isNameChar_of_isLayout {c : Char} (layout : isLayout c = true) :
    isNameChar c = false := by
  rcases layout_cases layout with rfl | rfl | rfl | rfl <;> decide

theorem isWord_of_isLayout {c : Char} (layout : isLayout c = true) : isWord c = false := by
  rcases layout_cases layout with rfl | rfl | rfl | rfl <;> decide

/-- The code points of the blanks. -/
def blankCodes : List Nat :=
  [0x09, 0x0A, 0x0B, 0x0C, 0x0D, 0x1C, 0x1D, 0x1E, 0x1F, 0x20, 0x85, 0xA0, 0x1680, 0x2000, 0x2001,
    0x2002, 0x2003, 0x2004, 0x2005, 0x2006, 0x2007, 0x2008, 0x2009, 0x200A, 0x2028, 0x2029, 0x202F,
    0x205F, 0x3000]

theorem isWord_blankCodes : ∀ n ∈ blankCodes, isWord (Char.ofNat n) = false := by decide +kernel

theorem isWord_of_isBlank {c : Char} (blank : isBlank c = true) : isWord c = false := by
  have listed : c.toNat ∈ blankCodes := by
    simp only [isBlank, Bool.or_eq_true, Bool.and_eq_true, decide_eq_true_eq, beq_iff_eq] at blank
    simp only [blankCodes, List.mem_cons, List.not_mem_nil, or_false]
    omega
  rw [← Char.ofNat_toNat c]
  exact isWord_blankCodes c.toNat listed

/-- Every character of a mark is visible and neither a word character, a name character nor a
quote. -/
theorem punct_char {p : Punct} {c : Char} (inside : c ∈ p.text) :
    33 ≤ c.toNat ∧ c.toNat ≤ 126 ∧ isWord c = false ∧ isNameChar c = false ∧
      Quote.ofChar? c = none := by
  have all : p.text.all (fun c => 33 ≤ c.toNat && c.toNat ≤ 126 && !isWord c && !isNameChar c &&
      (Quote.ofChar? c).isNone) = true := by
    cases p <;> decide
  simpa [and_assoc] using List.all_eq_true.1 all c inside

theorem ofChar?_of_isNameChar {c : Char} (inner : isNameChar c = true) :
    Quote.ofChar? c = none := by
  cases known : Quote.ofChar? c with
  | none => rfl
  | some q =>
    rw [Quote.ofChar?_eq_some.1 known, isNameChar_quote] at inner
    cases inner

theorem ofChar?_of_isBlank {c : Char} (blank : isBlank c = true) : Quote.ofChar? c = none := by
  cases known : Quote.ofChar? c with
  | none => rfl
  | some q =>
    rw [Quote.ofChar?_eq_some.1 known, isBlank_quote] at blank
    cases blank

end BranchGate.Text
