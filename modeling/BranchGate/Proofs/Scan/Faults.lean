import BranchGate.Proofs.Gate.Steps
import BranchGate.Proofs.Lists
import BranchGate.Proofs.Scan.Bases
import BranchGate.Proofs.Scan.Pairs

/-! The bracket scan on every text, whether or not it lexes. Each bracket is judged by what stands
before it: the masked text tells which bracket is open and what it opens after, the plain text what
it encloses. The scan names the first bracket that fails. -/
namespace BranchGate.Scan

/-- Blanks aside, the longest name that the text ends in is a variable, and no dot stands before
it. -/
def OnVariable (masked : Text) : Prop :=
  ∃ a name blanks, masked = a ++ (name ++ blanks) ∧ (∀ c ∈ blanks, Text.isBlank c = true) ∧
    (∀ c ∈ name, Text.isNameChar c = true) ∧ (∀ c ∈ a.getLast?, Text.isNameChar c = false) ∧
    isVariable name = true ∧
    ¬∃ b more, a = b ++ '.' :: more ∧ ∀ c ∈ more, Text.isBlank c = true

/-- At most `n` digits, or one quoted text without a backslash and without a further quote of its
kind. -/
def IsKey (n : Int) (content : Text) : Prop :=
  (content ≠ [] ∧ (∀ c ∈ content, c.isDigit = true) ∧ (content.length : Int) ≤ n) ∨
    ∃ (q : Quote) (body : Text), content = q.char :: (body ++ [q.char]) ∧ q.char ∉ body ∧
      '\\' ∉ body

/-- What is wrong with the character that comes next, after what was read masked and plain. The end
of the text counts as one that must not come while a bracket is open. -/
inductive Fault (n : Int) (masked plain : Text) : Option Char → BracketFault → Prop
  | nested {j} : Opened masked j → Fault n masked plain (some '[') .nested
  | base : (∀ j, ¬Opened masked j) → ¬OnVariable masked → Fault n masked plain (some '[') .base
  | closed : (∀ j, ¬Opened masked j) → Fault n masked plain (some ']') .unbalanced
  | content {j} : Opened masked j → ¬IsKey n (Text.trim (plain.drop (j + 1))) →
      Fault n masked plain (some ']') .content
  | left {j} : Opened masked j → Fault n masked plain none .unbalanced

/-- A fault of the text at a position. -/
def FaultAt (n : Int) (t : Text) (i : Nat) : BracketFault → Prop :=
  Fault n ((mask t).take i) (t.take i) (mask t)[i]?

/-- What the scan keeps about the text read so far: the inside of the open bracket, if one is. -/
inductive Standing (masked plain : Text) : Option Text → Prop
  | outside : (∀ j, ¬Opened masked j) → Standing masked plain none
  | within {j} : Opened masked j → Standing masked plain (some (plain.drop (j + 1)).reverse)

variable {masked plain : Text} {c : Char} {j : Nat} {n : Int}

theorem isQuotedKey_iff {content : Text} : isQuotedKey content = true ↔ ∃ (q : Quote) (body : Text),
    content = q.char :: (body ++ [q.char]) ∧ q.char ∉ body ∧ '\\' ∉ body := by
  constructor
  · intro key
    cases content with
    | nil => cases key
    | cons c rest =>
      cases known : Quote.ofChar? c with
      | none => simp [isQuotedKey, known] at key
      | some q =>
        obtain rfl := Quote.ofChar?_eq_some.1 known
        have closing : rest.getLast? = some q.char := by
          simp only [isQuotedKey, known, Bool.and_eq_true, beq_iff_eq] at key
          exact key.1
        obtain ⟨body, rfl⟩ := List.getLast?_eq_some_iff.1 closing
        exact ⟨q, body, rfl, isQuotedKey_plain key⟩
  · rintro ⟨q, body, rfl, bare, plain⟩
    simp only [isQuotedKey, Quote.ofChar?_char, List.getLast?_concat, List.dropLast_concat,
      Bool.and_eq_true, List.all_eq_true, bne_iff_ne, beq_iff_eq, true_and]
    intro d inside
    exact ⟨fun same => bare (same ▸ inside), fun same => plain (same ▸ inside)⟩

theorem isKey_iff (positive : 0 < n) {content : Text} :
    (isIndex (.count n) content || isQuotedKey content) = true ↔ IsKey n content := by
  rw [Bool.or_eq_true, isIndex_count positive, isQuotedKey_iff]
  rfl

theorem afterDot_reverse {a : Text} : afterDot a.reverse = true ↔
    ∃ b more, a = b ++ '.' :: more ∧ ∀ c ∈ more, Text.isBlank c = true := by
  rw [afterDot, beq_iff_eq]
  constructor
  · intro dotted
    obtain ⟨front, shape⟩ := List.head?_eq_some_iff.1 dotted
    have whole := List.takeWhile_append_dropWhile (p := Text.isBlank) (l := a.reverse)
    refine ⟨front.reverse, (a.reverse.takeWhile Text.isBlank).reverse, ?_, fun c inside => ?_⟩
    · rw [shape] at whole
      simpa using congrArg List.reverse whole.symm
    · exact List.all_eq_true.1 List.all_takeWhile c (List.mem_reverse.1 inside)
  · rintro ⟨b, more, rfl, blank⟩
    have blank : ∀ c ∈ more.reverse, Text.isBlank c = true :=
      fun c inside => blank c (List.mem_reverse.1 inside)
    rw [List.reverse_append, List.reverse_cons, List.append_assoc, List.singleton_append,
      List.dropWhile_append_of_pos blank]
    rfl

theorem isName_of_isVariable {name : Text} (isVar : isVariable name = true) :
    Text.isName name = true := by
  obtain ⟨ds, rfl, digits⟩ := Expr.isVariable_cases isVar
  have inner : ds.all Text.isNameChar = true :=
    List.all_eq_true.2 fun c inside => Text.isNameChar_of_isDigit (digits.2 c inside)
  rw [Text.isName, List.all_cons, List.all_cons, inner]
  rfl

/-- The scan looks for the base backwards. -/
theorem endsInVariable_iff : endsInVariable masked.reverse = true ↔ OnVariable masked := by
  constructor
  · intro ends
    obtain ⟨isVar, undotted⟩ := Bool.and_eq_true_iff.1 ends
    refine ⟨((masked.reverse.dropWhile Text.isBlank).dropWhile Text.isNameChar).reverse, _,
      (masked.reverse.takeWhile Text.isBlank).reverse, ?_, ?_, ?_, ?_, isVar, ?_⟩
    · rw [← List.reverse_append, ← List.reverse_append, List.append_assoc,
        List.takeWhile_append_dropWhile, List.takeWhile_append_dropWhile, List.reverse_reverse]
    · exact fun c inside => List.all_eq_true.1 List.all_takeWhile c (List.mem_reverse.1 inside)
    · exact fun c inside => List.all_eq_true.1 List.all_takeWhile c (List.mem_reverse.1 inside)
    · rw [List.getLast?_reverse]
      exact Token.head_dropWhile
    · rw [← afterDot_reverse, List.reverse_reverse, afterDot]
      simpa using undotted
  · rintro ⟨a, name, blanks, rfl, blank, _, longest, isVar, undotted⟩
    rw [endsInVariable_name blank (isName_of_isVariable isVar) longest, isVar, Bool.true_and,
      Bool.not_eq_true', ← Bool.not_eq_true, afterDot_reverse]
    exact undotted

/-- Where more text comes, the faults in it, by their positions there. -/
def FaultFrom (n : Int) (masked plain x y : Text) (i : Nat) : BracketFault → Prop :=
  Fault n (masked ++ x.take i) (plain ++ y.take i) x[i]?

theorem faultFrom_zero {x y : Text} :
    FaultFrom n masked plain x y 0 = Fault n masked plain x[0]? := by
  simp [FaultFrom]

theorem faultFrom_succ {x y : Text} {d : Char} (i : Nat) :
    FaultFrom n masked plain (c :: x) (d :: y) (i + 1) =
      FaultFrom n (masked ++ [c]) (plain ++ [d]) x y i := by
  simp [FaultFrom]

theorem first_of_fault {x y : Text} {f : BracketFault} (fault : Fault n masked plain x[0]? f) :
    First (FaultFrom n masked plain x y) (some f) :=
  .here (faultFrom_zero ▸ fault)

theorem first_of_rest {x y : Text} {d : Char} {found : Option BracketFault}
    (clear : ∀ f, ¬Fault n masked plain (some c) f)
    (later : First (FaultFrom n (masked ++ [c]) (plain ++ [d]) x y) found) :
    First (FaultFrom n masked plain (c :: x) (d :: y)) found := by
  refine .later (fun f fault => clear f ?_) ?_
  · rwa [faultFrom_zero] at fault
  · simpa only [faultFrom_succ] using later

theorem standing_open {d : Char} (together : masked.length = plain.length) :
    Standing (masked ++ ['[']) (plain ++ [d]) (some []) := by
  have inside : Standing (masked ++ ['[']) (plain ++ [d])
      (some ((plain ++ [d]).drop (masked.length + 1)).reverse) := .within opened_open
  rwa [List.drop_of_length_le (by simp [together])] at inside

theorem standing_close {d : Char} : Standing (masked ++ [']']) (plain ++ [d]) none :=
  .outside fun _ => not_opened_close

theorem Standing.other {inside : Option Text} {d : Char} (standing : Standing masked plain inside)
    (together : masked.length = plain.length) (other : isBracket c = false) :
    Standing (masked ++ [c]) (plain ++ [d]) (inside.map (d :: ·)) := by
  cases standing with
  | outside none => exact .outside fun j opened => none j ((opened_other other).1 opened)
  | @within j opened =>
    have early := opened.lt
    have inside : Standing (masked ++ [c]) (plain ++ [d])
        (some ((plain ++ [d]).drop (j + 1)).reverse) := .within ((opened_other other).2 opened)
    rwa [List.drop_append_of_le_length (by omega), List.reverse_append] at inside

/-- What the scan finds in the text to come is the first fault there. -/
def Finds (n : Int) (masked plain : Text) (inside : Option Text) (x y : Text) : Prop :=
  First (FaultFrom n masked plain x y) (bracketFaultFrom (.count n) masked.reverse inside x y)

section Steps

variable {inside : Option Text} {x y : Text} {d : Char}

theorem finds_open (together : masked.length = plain.length)
    (standing : Standing masked plain inside)
    (more : ∀ inside, Standing (masked ++ ['[']) (plain ++ [d]) inside →
      Finds n (masked ++ ['[']) (plain ++ [d]) inside x y) :
    Finds n masked plain inside ('[' :: x) (d :: y) := by
  cases standing with
  | within opened => exact first_of_fault (.nested opened)
  | outside none =>
    have later := more _ (standing_open together)
    rw [Finds, List.reverse_append] at later
    cases based : endsInVariable masked.reverse with
    | true =>
      simp only [Finds, bracketFaultFrom, based, ↓reduceIte]
      refine first_of_rest (fun f fault => ?_) later
      cases fault with
      | nested opened => exact none _ opened
      | base _ other => exact other (endsInVariable_iff.1 based)
    | false =>
      simp only [Finds, bracketFaultFrom, based, Bool.false_eq_true, ↓reduceIte]
      refine first_of_fault (.base none fun onVariable => ?_)
      cases based.symm.trans (endsInVariable_iff.2 onVariable)

theorem finds_close (positive : 0 < n) (standing : Standing masked plain inside)
    (more : ∀ inside, Standing (masked ++ [']']) (plain ++ [d]) inside →
      Finds n (masked ++ [']']) (plain ++ [d]) inside x y) :
    Finds n masked plain inside (']' :: x) (d :: y) := by
  cases standing with
  | outside none => exact first_of_fault (.closed none)
  | @within j opened =>
    have later := more _ standing_close
    rw [Finds, List.reverse_append] at later
    simp only [Finds, bracketFaultFrom, Char.reduceEq, List.reverse_reverse, ↓reduceIte]
    split
    next key =>
      refine first_of_rest (fun f fault => ?_) later
      cases fault with
      | closed none => exact none j opened
      | content opened' other =>
        rw [opened'.unique opened] at other
        exact other ((isKey_iff positive).1 key)
    next other => exact first_of_fault (.content opened (mt (isKey_iff positive).2 other))

theorem finds_other (together : masked.length = plain.length)
    (standing : Standing masked plain inside) (opens : c ≠ '[') (closes : c ≠ ']')
    (more : ∀ inside, Standing (masked ++ [c]) (plain ++ [d]) inside →
      Finds n (masked ++ [c]) (plain ++ [d]) inside x y) :
    Finds n masked plain inside (c :: x) (d :: y) := by
  have other : isBracket c = false := by simp [isBracket, opens, closes]
  have later := more _ (standing.other together other)
  rw [Finds, List.reverse_append] at later
  simp only [Finds, bracketFaultFrom, opens, closes, ↓reduceIte]
  refine first_of_rest (fun f fault => ?_) later
  cases fault with
  | nested | base => exact opens rfl
  | closed | content => exact closes rfl

/-- The scan of what is to come keeps its standing from character to character. -/
theorem finds_of_standing (positive : 0 < n) (length : x.length = y.length)
    (together : masked.length = plain.length) (standing : Standing masked plain inside) :
    Finds n masked plain inside x y := by
  induction x generalizing masked plain inside y with
  | nil =>
    rw [List.length_eq_zero_iff.1 length.symm]
    cases standing with
    | outside none =>
      intro i f fault
      rw [FaultFrom, List.take_nil, List.append_nil] at fault
      cases fault with
      | left opened => exact none _ opened
    | within opened => exact first_of_fault (.left opened)
  | cons c x ih =>
    cases y with
    | nil => cases length
    | cons d y =>
      have more (inside : Option Text) (standing : Standing (masked ++ [c]) (plain ++ [d]) inside) :
          Finds n (masked ++ [c]) (plain ++ [d]) inside x y :=
        ih (Nat.succ.inj length) (by simp [together]) standing
      by_cases opens : c = '['
      · subst opens
        exact finds_open together standing more
      · by_cases closes : c = ']'
        · subst closes
          exact finds_close positive standing more
        · exact finds_other together standing opens closes more

end Steps

/-- Nothing is wrong next if no bracket is out of place there, an opening one follows a variable and
a closing one encloses a key. -/
theorem no_fault_iff {next : Option Char} : (∀ f, ¬Fault n masked plain next f) ↔
    ¬Misplaced masked next ∧ (next = some '[' → OnVariable masked) ∧
      (next = some ']' → ∀ j, Opened masked j → IsKey n (Text.trim (plain.drop (j + 1)))) := by
  constructor
  · intro clear
    have placed : ¬Misplaced masked next := by
      rintro (opened | none | opened)
      · exact clear _ (.nested opened)
      · exact clear _ (.closed none)
      · exact clear _ (.left opened)
    refine ⟨placed, ?_, ?_⟩
    · rintro rfl
      by_contra other
      exact clear _ (.base (fun j opened => placed (.nested opened)) other)
    · rintro rfl j opened
      by_contra other
      exact clear _ (.content opened other)
  · rintro ⟨placed, based, keyed⟩ f fault
    cases fault with
    | nested opened => exact placed (.nested opened)
    | base _ other => exact other (based rfl)
    | closed none => exact placed (.closed none)
    | content opened other => exact other (keyed rfl _ opened)
    | left opened => exact placed (.left opened)

theorem Fault.unique {next : Option Char} {f g : BracketFault} (fault : Fault n masked plain next f)
    (other : Fault n masked plain next g) : f = g := by
  cases fault with
  | nested opened =>
    cases other with
    | nested => rfl
    | base none => exact absurd opened (none _)
  | base none =>
    cases other with
    | nested opened => exact absurd opened (none _)
    | base => rfl
  | closed none =>
    cases other with
    | closed => rfl
    | content opened => exact absurd opened (none _)
  | content opened =>
    cases other with
    | closed none => exact absurd opened (none _)
    | content => rfl
  | left => cases other; rfl

theorem bracketFault?_first (positive : 0 < n) (t : Text) :
    First (FaultAt n t) (bracketFault? (.count n) t) :=
  finds_of_standing positive (length_mask t) rfl (.outside fun _ => not_opened_nil)

/-- Under a proper limit a text passes exactly if its brackets alternate, each opens after a variable
and each pair encloses a key; otherwise the first fault is named. -/
theorem bracketFault_first {n : Int} (positive : 0 < n) (proper : n < repetitionBound) (t : Text) :
    ∃ found, Gate.bracketFault (.count n) t = .ok found ∧
      (found = none ↔ Alternates (mask t) ∧
        (∀ i, (mask t)[i]? = some '[' → OnVariable ((mask t).take i)) ∧
        ∀ i, (mask t)[i]? = some ']' → ∀ j, Opened ((mask t).take i) j →
          IsKey n (Text.trim ((t.take i).drop (j + 1)))) ∧
      ∀ fault, found = some fault ↔ ∃ i, FaultAt n t i fault ∧
        ∀ k < i, ∀ other, ¬FaultAt n t k other := by
  have readable : Gate.bracketFault (.count n) t = .ok (bracketFault? (.count n) t) :=
    Gate.bracketFault_searchable positive proper
  have first := bracketFault?_first positive t
  refine ⟨_, readable, ?_, fun fault => first.eq_some_iff fun _ _ _ => Fault.unique⟩
  rw [first.eq_none_iff, alternates_iff]
  simp only [FaultAt, no_fault_iff, forall_and]

/-- A bracket in a string is no bracket, and a long index is refused after a key that is not. -/
theorem bracketFault_first_index :
    Alternates (mask ("__v0 ['a]'] # __v1[ 1234 ]" : String).toList) ∧
      ∃ i, FaultAt 4 ("__v0 ['a]'] # __v1[12345]" : String).toList i .content ∧
        ∀ k < i, ∀ other, ¬FaultAt 4 ("__v0 ['a]'] # __v1[12345]" : String).toList k other := by
  have passes : Gate.bracketFault (.count 4) ("__v0 ['a]'] # __v1[ 1234 ]" : String).toList =
      .ok none := eq_ok_of_toOption (by decide +kernel)
  have fails : Gate.bracketFault (.count 4) ("__v0 ['a]'] # __v1[12345]" : String).toList =
      .ok (some .content) := eq_ok_of_toOption (by decide +kernel)
  have positive : (0 : Int) < 4 := by decide
  have proper : (4 : Int) < repetitionBound := by decide
  obtain ⟨found, answer, clear, _⟩ :=
    bracketFault_first positive proper ("__v0 ['a]'] # __v1[ 1234 ]" : String).toList
  obtain ⟨found', answer', _, first⟩ :=
    bracketFault_first positive proper ("__v0 ['a]'] # __v1[12345]" : String).toList
  cases passes.symm.trans answer
  cases fails.symm.trans answer'
  exact ⟨(clear.1 rfl).1, (first .content).1 rfl⟩

end BranchGate.Scan
