import BranchGate.Proofs.Lists
import BranchGate.Proofs.Rule.Names
import BranchGate.Proofs.Scan.Words

/-! What the word and method scans find in a text that lexes: the first token that stands in a
place they object to, whether or not the grammar takes the tokens. -/
namespace BranchGate.Scan

open Token (Lexed)

/-- A property of a token among the tokens before it and those after it. -/
abbrev Place := List Token → Token → List Token → Prop

/-- The token at the position is written as the name and has the property. -/
def NamedAt (p : Place) (ts : List Token) (i : Nat) (name : Text) : Prop :=
  ∃ l t r, ts = l ++ t :: r ∧ l.length = i ∧ p l t r ∧ t.source = name

variable {p : Place} {ts : List Token} {t : Token} {s : Text}

theorem first_nil : First (NamedAt p []) none := by
  rintro i name ⟨l, t, r, whole, _⟩
  cases l <;> cases whole

theorem first_hit (holds : p [] t ts) : First (NamedAt p (t :: ts)) (some t.source) :=
  .here ⟨[], t, ts, rfl, rfl, holds, rfl⟩

/-- A token without the property is passed over. -/
theorem first_skip {found : Option Text} (misses : ¬p [] t ts)
    (later : First (NamedAt (fun l => p (t :: l)) ts) found) :
    First (NamedAt p (t :: ts)) found := by
  have next (i : Nat) : NamedAt p (t :: ts) (i + 1) = NamedAt (fun l => p (t :: l)) ts i := by
    funext name
    refine propext ⟨?_, ?_⟩
    · rintro ⟨l, u, r, whole, here, holds⟩
      cases l with
      | nil => cases here
      | cons _ l => cases whole; exact ⟨l, u, r, rfl, Nat.succ.inj here, holds⟩
    · rintro ⟨l, u, r, rfl, rfl, holds⟩
      exact ⟨t :: l, u, r, rfl, rfl, holds⟩
  refine .later ?_ (by simpa only [next] using later)
  rintro name ⟨l, u, r, whole, here, holds, _⟩
  cases List.length_eq_zero_iff.1 here
  cases whole
  exact misses holds

theorem first_find? {g : Token → Bool} (same : ∀ l t r, ts = l ++ t :: r →
    (g t = true ↔ p l t r)) : First (NamedAt p ts) ((ts.find? g).map Token.source) := by
  induction ts generalizing p with
  | nil => exact first_nil
  | cons t ts ih =>
    have first := same [] t ts rfl
    cases holds : g t with
    | true =>
      rw [List.find?_cons_of_pos holds]
      exact first_hit (first.1 holds)
    | false =>
      rw [List.find?_cons_of_neg (by simp [holds])]
      refine first_skip (fun met => by simp [first.2 met] at holds) (ih fun l u r whole => ?_)
      exact same (t :: l) u r (by rw [whole, List.cons_append])

/-- A name that is no property, no part of a number, no reserved word and no variable. -/
structure Stray (s : Text) (before : List Token) (t : Token) : Prop where
  named : t.lexeme = .name t.source
  property : ∀ u ∈ before.getLast?, u.lexeme ≠ .punct .dot
  glued : ∀ c ∈ (s.take t.pos).getLast?, c.isDigit = false
  unreserved : t.source ∉ reservedNames
  unknown : isVariable t.source = false

theorem known_reservedNames : ∀ n ∈ reservedNames, (Literal.ofName? n).isSome = true := by decide

theorem stray_iff {l r : List Token} (laid : Lexed 0 s (l ++ t :: r)) :
    (t.isNamed && Word.stray ⟨t.source, ((mask s).take t.pos).reverse⟩) = true ↔ Stray s l t := by
  have spells : Token.Spells t.lexeme t.source := laid.spells t (by simp)
  have glued : ((mask s).take t.pos).getLast? = (s.take t.pos).getLast? := by
    obtain ⟨a, b, rfl, stands, front, _⟩ := laid.split
    rw [stands, Nat.zero_add, mask_append front.closed, List.take_left,
      List.take_left' (length_mask a), getLast?_mask front.closed]
  have named : t.isNamed = true ↔ t.lexeme = .name t.source := by
    rw [Token.isNamed_eq_true]
    refine ⟨fun ⟨n, isName⟩ => ?_, fun isName => ⟨_, isName⟩⟩
    rw [isName] at spells
    rw [isName, spells.name_source.1]
  have property : afterDot ((mask s).take t.pos).reverse = false ↔
      ∀ u ∈ l.getLast?, u.lexeme ≠ .punct .dot := by
    rw [laid.afterDot_at]
    cases l.getLast? <;> simp
  have reserved : (Literal.ofName? t.source).isSome = false ↔ t.source ∉ reservedNames := by
    rw [Bool.eq_false_iff, not_iff_not]
    exact ⟨mem_reservedNames, known_reservedNames t.source⟩
  have glue : ((mask s).take t.pos).reverse.head?.any Char.isDigit = false ↔
      ∀ c ∈ (s.take t.pos).getLast?, c.isDigit = false := by
    rw [List.head?_reverse, glued]
    cases (s.take t.pos).getLast? <;> simp
  simp only [Word.stray, Bool.and_eq_true, Bool.not_eq_true', named, glue, property, reserved]
  constructor
  · rintro ⟨named, ⟨⟨glued, property⟩, unreserved⟩, unknown⟩
    exact ⟨named, property, glued, unreserved, unknown⟩
  · rintro ⟨named, property, glued, unreserved, unknown⟩
    exact ⟨named, ⟨⟨glued, property⟩, unreserved⟩, unknown⟩

/-- The words that the scan reads are the names among the tokens, in their order. -/
theorem strayIdentifier?_first (laid : Lexed 0 s ts) :
    First (NamedAt (fun l t _ => Stray s l t) ts) (strayIdentifier? s) := by
  have found : strayIdentifier? s = (ts.find? fun t =>
      t.isNamed && Word.stray ⟨t.source, ((mask s).take t.pos).reverse⟩).map Token.source := by
    rw [strayIdentifier?, words, laid.wordsFrom [], List.find?_map, List.find?_filter,
      Option.map_map]
    simp only [List.append_nil, Nat.sub_zero, Function.comp_def, Bool.decide_and,
      Bool.decide_eq_true]
  rw [found]
  exact first_find? fun l t r whole => stray_iff (whole ▸ laid)

/-- A name between a dot and an opening parenthesis that is not among the allowed ones. -/
structure Foreign (allowed : List Text) (before : List Token) (t : Token) (after : List Token) :
    Prop where
  named : t.lexeme = .name t.source
  property : before.getLast?.map Token.lexeme = some (.punct .dot)
  called : after.head?.map Token.lexeme = some (.punct .openParen)
  unlisted : t.source ∉ allowed

/-- The name called at the head of some lexemes, after those of the tokens before. -/
def calledAfter (before : List Token) (lexs : List Lexeme) : Option Text :=
  if before.getLast?.map Token.lexeme = some (.punct .dot) then calledName lexs else none

theorem calledIn_cons (before : List Token) (t : Token) (lexs : List Lexeme) :
    calledIn (t.lexeme :: lexs) = (calledAfter (before ++ [t]) lexs).toList ++ calledIn lexs := by
  simp only [calledAfter, List.getLast?_concat, Option.map_some, Option.some_inj]
  cases t.lexeme with
  | punct p => cases p <;> rfl
  | integer | decimal | text | name => rfl

theorem calledName_cons {l : Lexeme} {lexs : List Lexeme} {n : Text} :
    calledName (l :: lexs) = some n ↔ l = .name n ∧ lexs.head? = some (.punct .openParen) := by
  rw [calledName_eq_some, List.cons_prefix_cons]
  cases lexs with
  | nil => simp
  | cons k rest => simp [eq_comm]

theorem calledAfter_eq_some {before : List Token} {n : Text} :
    calledAfter before ((t :: ts).map Token.lexeme) = some n ↔ t.lexeme = .name n ∧
      before.getLast?.map Token.lexeme = some (.punct .dot) ∧
      ts.head?.map Token.lexeme = some (.punct .openParen) := by
  rw [calledAfter, List.map_cons, ← List.head?_map]
  split
  next dotted => simp only [calledName_cons, dotted, true_and]
  next other => simp only [other, false_and, and_false, reduceCtorEq]

/-- The scan goes on from token to token; what it finds depends on the token before. -/
theorem first_called (allowed : List Text) (spells : ∀ t ∈ ts, Token.Spells t.lexeme t.source)
    (before : List Token) : First (NamedAt (fun l => Foreign allowed (before ++ l)) ts)
      (((calledAfter before (ts.map Token.lexeme)).toList ++ calledIn (ts.map Token.lexeme)).find?
        fun name => !allowed.contains name) := by
  induction ts generalizing before with
  | nil =>
    have unnamed : calledAfter before [] = none := by unfold calledAfter; split <;> rfl
    rw [List.map_nil, unnamed]
    exact first_nil
  | cons t ts ih =>
    obtain ⟨written, others⟩ := List.forall_mem_cons.1 spells
    have later := ih others (before ++ [t])
    simp only [List.append_assoc, List.singleton_append] at later
    rw [← calledIn_cons] at later
    cases here : calledAfter before ((t :: ts).map Token.lexeme) with
    | none =>
      refine first_skip (fun foreign => ?_) later
      rw [List.append_nil] at foreign
      have there := calledAfter_eq_some.2 ⟨foreign.named, foreign.property, foreign.called⟩
      cases here.symm.trans there
    | some n =>
      obtain ⟨isName, property, called⟩ := calledAfter_eq_some.1 here
      have source : t.source = n := (isName ▸ written).name_source.1
      rw [Option.toList_some, List.singleton_append, ← source]
      by_cases listed : t.source ∈ allowed
      · rw [List.find?_cons_of_neg (by simpa using listed)]
        exact first_skip (fun foreign => foreign.unlisted listed) later
      · rw [List.find?_cons_of_pos (by simpa using listed)]
        refine first_hit ⟨source ▸ isName, ?_, called, listed⟩
        rwa [List.append_nil]

theorem foreignMethod?_first (laid : Lexed 0 s ts) (allowed : List Text) :
    First (NamedAt (Foreign allowed) ts) (foreignMethod? allowed s) := by
  have found := first_called allowed laid.spells []
  rw [foreignMethod?, laid.calledNames]
  exact found

/-- Wherever a text has tokens, the word scan names the first stray one among them and the method
scan the first foreign one. -/
theorem scans_read_tokens {s : Text} {ts : List Token} (lexed : Token.lex s = .ok ts) :
    First (NamedAt (fun l t _ => Stray s l t) ts) (strayIdentifier? s) ∧
      ∀ allowed, First (NamedAt (Foreign allowed) ts) (foreignMethod? allowed s) :=
  ⟨strayIdentifier?_first (Token.lexed_of_lex lexed),
    foreignMethod?_first (Token.lexed_of_lex lexed)⟩

/-- The exponent and the property are passed over in tokens that the grammar refuses. -/
theorem scans_read_refused : (Expr.read ⟨defaultMethods, .count 50⟩
      ("1e5 foo .trim( . bar (" : String).toList).toOption = none ∧
    ∃ ts, Token.lex ("1e5 foo .trim( . bar (" : String).toList = .ok ts ∧
      First (NamedAt (fun l t _ => Stray ("1e5 foo .trim( . bar (" : String).toList l t) ts)
        (some ("foo" : String).toList) ∧
      First (NamedAt (Foreign defaultMethods) ts) (some ("bar" : String).toList) := by
  have lexed : Token.lex ("1e5 foo .trim( . bar (" : String).toList = .ok [
      ⟨.integer 1, ("1" : String).toList, 0⟩,
      ⟨.name ("e5" : String).toList, ("e5" : String).toList, 1⟩,
      ⟨.name ("foo" : String).toList, ("foo" : String).toList, 4⟩,
      ⟨.punct .dot, ("." : String).toList, 8⟩,
      ⟨.name ("trim" : String).toList, ("trim" : String).toList, 9⟩,
      ⟨.punct .openParen, ("(" : String).toList, 13⟩,
      ⟨.punct .dot, ("." : String).toList, 15⟩,
      ⟨.name ("bar" : String).toList, ("bar" : String).toList, 17⟩,
      ⟨.punct .openParen, ("(" : String).toList, 21⟩] := eq_ok_of_toOption (by decide +kernel)
  have stray : strayIdentifier? ("1e5 foo .trim( . bar (" : String).toList =
      some ("foo" : String).toList := by decide +kernel
  have foreign : foreignMethod? defaultMethods ("1e5 foo .trim( . bar (" : String).toList =
      some ("bar" : String).toList := by decide +kernel
  refine ⟨by decide +kernel, _, lexed, ?_, ?_⟩
  · rw [← stray]
    exact (scans_read_tokens lexed).1
  · rw [← foreign]
    exact (scans_read_tokens lexed).2 defaultMethods

end BranchGate.Scan
