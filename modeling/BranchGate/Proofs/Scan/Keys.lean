import BranchGate.Proofs.Expr.Completeness
import BranchGate.Proofs.Scan.Brackets
import BranchGate.Proofs.Scan.Words

/-! The bracket scan read off the tokens of a text that the grammar derives: each bracket opens
around one key. The scan asks of each what it opens after and how its key is written, and the limit
on index digits decides about the keys alone. -/
namespace BranchGate

namespace Expr

/-- Brackets stand in pairs, around one key each. -/
inductive Keyed : List Lexeme → Prop
  | nil : Keyed []
  | other {l rest} : l ≠ .punct .openBracket → l ≠ .punct .closeBracket → Keyed rest →
      Keyed (l :: rest)
  | key {sign key rest} : key? sign = some key → Keyed rest →
      Keyed (.punct .openBracket :: sign :: .punct .closeBracket :: rest)

theorem Keyed.append {a b : List Lexeme} (left : Keyed a) (right : Keyed b) : Keyed (a ++ b) := by
  induction left with
  | nil => exact right
  | other opens closes _ ih => exact .other opens closes ih
  | key known _ ih => exact .key known ih

theorem keyed_of_derives {methods : List Text} {form : Form} {lexs : List Lexeme} {e : Expr}
    {d : Nat} (derived : Derives methods form lexs e d) : Keyed lexs := by
  induction derived with
  | operand _ ih | tighter _ ih | ofSuffixed _ ih | ofPrimary _ ih => exact ih
  | @binary level _ _ _ _ _ _ _ _ _ _ known _ ihLeft ihRight =>
    refine ihLeft.append (.other ?_ ?_ ihRight)
    · rintro rfl
      cases level <;> cases known
    · rintro rfl
      cases level <;> cases known
  | not _ ih => exact .other (by decide) (by decide) ih
  | negativeInteger n | negativeDecimal n =>
    exact .other (by decide) (by decide) (.other nofun nofun .nil)
  | member _ _ ih =>
    exact ih.append (.other (by decide) (by decide) (.other nofun nofun .nil))
  | call _ _ _ ih =>
    exact ih.append (.other (by decide) (by decide) (.other nofun nofun
      (.other (by decide) (by decide) (.other (by decide) (by decide) .nil))))
  | callWith _ _ _ _ ih ihArgument =>
    have closing : Keyed [.punct .closeParen] := .other (by decide) (by decide) .nil
    exact ih.append (.other (by decide) (by decide) (.other nofun nofun
      (.other (by decide) (by decide) (ihArgument.append closing))))
  | index _ known ih => exact ih.append (.key known .nil)
  | integer | decimal | text | reserved | «variable» => exact .other nofun nofun .nil
  | group _ ih =>
    have closing : Keyed [.punct .closeParen] := .other (by decide) (by decide) .nil
    exact .other (by decide) (by decide) (ih.append closing)

end Expr

namespace Scan

open Token (Lexed Spells)

/-- What may stand between brackets. -/
def AllowedKey (limit : Limit) (source : Text) : Prop :=
  isIndex limit source = true ∨ isQuotedKey source = true

/-- Every token after an opening bracket is written as a key may be. -/
def AllowedKeys (limit : Limit) (ts : List Token) : Prop :=
  ∀ opening key, [opening, key] <:+: ts → opening.lexeme = .punct .openBracket →
    AllowedKey limit key.source

variable {limit : Limit} {t opening key closing : Token} {ts : List Token}

theorem allowedKeys_other (other : t.lexeme ≠ .punct .openBracket) :
    AllowedKeys limit (t :: ts) ↔ AllowedKeys limit ts := by
  constructor
  · intro allowed opening key inside
    exact allowed opening key (inside.trans (List.suffix_cons t ts).isInfix)
  · intro allowed opening key inside isOpen
    rcases List.infix_cons_iff.1 inside with first | later
    · rw [(List.cons_prefix_cons.1 first).1] at isOpen
      exact absurd isOpen other
    · exact allowed opening key later isOpen

theorem allowedKeys_key (isOpen : opening.lexeme = .punct .openBracket)
    (other : key.lexeme ≠ .punct .openBracket) :
    AllowedKeys limit (opening :: key :: ts) ↔
      AllowedKey limit key.source ∧ AllowedKeys limit ts := by
  have later : AllowedKeys limit (key :: ts) ↔ AllowedKeys limit ts := allowedKeys_other other
  rw [← later]
  constructor
  · intro allowed
    refine ⟨allowed opening key ⟨[], ts, rfl⟩ isOpen, fun o k inside => allowed o k ?_⟩
    exact inside.trans (List.suffix_cons opening _).isInfix
  · rintro ⟨first, allowed⟩ o k inside isOpen
    rcases List.infix_cons_iff.1 inside with head | later
    · obtain ⟨_, rest⟩ := List.cons_prefix_cons.1 head
      rw [(List.cons_prefix_cons.1 rest).1]
      exact first
    · exact allowed o k later isOpen

/-- An indexing, read as a whole: after a variable, the content decides. -/
theorem bracketFaultFrom_indexing {before content : Text} (within : Unbracketed content)
    (rest : Text) :
    bracketFaultFrom limit before none (mask ('[' :: (content ++ ']' :: rest)))
        ('[' :: (content ++ ']' :: rest)) =
      if endsInVariable before then
        if isIndex limit (Text.trim content) || isQuotedKey (Text.trim content) then
          bracketFaultFrom limit (']' :: ((mask content).reverse ++ '[' :: before)) none
            (mask rest) rest
        else some .content
      else some .base := by
  have opens (t : Text) : mask ('[' :: t) = '[' :: mask t := rfl
  have closes (t : Text) : mask (']' :: t) = ']' :: mask t := rfl
  rw [opens]
  simp only [bracketFaultFrom, ↓reduceIte]
  rw [bracketFaultFrom_unbracketed within, closes]
  simp [bracketFaultFrom]

/-- The layout before a token shows no brackets. -/
theorem unbracketed_layout {pos : Nat} {a : Text} (front : Lexed pos a []) : Unbracketed a :=
  unbracketed_blank fun c inside => Text.isBlank_of_isLayout (front.layout_of_nil c inside)

/-- Every bracket opens after a variable, seen from the masked text that was read until then. -/
def Based (before : Text) (pos : Nat) (s : Text) (ts : List Token) : Prop :=
  ∀ t ∈ ts, t.lexeme = .punct .openBracket →
    endsInVariable (((mask s).take (t.pos - pos)).reverse ++ before) = true

theorem based_skip {before x y : Text} {pos : Nat} (closed : Region.code.after x = .code)
    (more : Lexed (pos + x.length) y ts) : Based before pos (x ++ y) ts ↔
      Based ((mask x).reverse ++ before) (pos + x.length) y ts := by
  refine forall₂_congr fun t member => ?_
  have late := (more.source_at t member).1
  rw [mask_append closed, Token.reverse_take_append (by rw [length_mask]; exact late), length_mask]

theorem based_other {before s : Text} {pos : Nat} (other : t.lexeme ≠ .punct .openBracket) :
    Based before pos s (t :: ts) ↔ Based before pos s ts := by
  rw [Based, List.forall_mem_cons]
  exact and_iff_right fun isOpen => absurd isOpen other

/-- An indexing in a text: what stands before it, and what between the brackets. -/
structure Indexing (pos : Nat) (s : Text) (opening key : Token) (ts : List Token)
    (a content b : Text) : Prop where
  whole : s = (a ++ '[' :: (content ++ [']'])) ++ b
  front : Unbracketed a
  stands : opening.pos = pos + a.length
  within : Unbracketed content
  trimmed : Text.trim content = key.source
  later : Lexed (pos + (a ++ '[' :: (content ++ [']'])).length) b ts

theorem indexing_of_lexed {pos : Nat} {s : Text}
    (lexed : Lexed pos s (opening :: key :: closing :: ts))
    (isOpen : opening.lexeme = .punct .openBracket) (noOpen : key.lexeme ≠ .punct .openBracket)
    (noClose : key.lexeme ≠ .punct .closeBracket) (isClose : closing.lexeme = .punct .closeBracket) :
    ∃ a content b, Indexing pos s opening key ts a content b := by
  obtain ⟨a, _, rfl, stands, front, spellsOpen, _, lexed⟩ := lexed.split (l := [])
  obtain ⟨l, _, rfl, inside, left, spells, _, lexed⟩ := lexed.split (l := [])
  obtain ⟨r, b, rfl, after, right, spellsClose, _, lexed⟩ := lexed.split (l := [])
  have opens : opening.source = ['['] := (isOpen ▸ spellsOpen).punct_source
  have closes : closing.source = [']'] := (isClose ▸ spellsClose).punct_source
  refine ⟨a, l ++ (key.source ++ r), b, by simp [opens, closes], unbracketed_layout front, stands,
    ?_, ?_, ?_⟩
  · exact (unbracketed_layout left).append
      ((unbracketed_token spells noOpen noClose).append (unbracketed_layout right))
  · exact trim_token spells
      (fun c inside => Text.isBlank_of_isLayout (left.layout_of_nil c inside))
      (fun c inside => Text.isBlank_of_isLayout (right.layout_of_nil c inside))
  · have length : closing.pos + closing.source.length =
        pos + (a ++ '[' :: (l ++ (key.source ++ r) ++ [']'])).length := by
      simp [stands, inside, after, opens, closes]
      omega
    rwa [length] at lexed

namespace Indexing

variable {pos : Nat} {s a content b : Text}

theorem closed (indexing : Indexing pos s opening key ts a content b) :
    Region.code.after (a ++ '[' :: (content ++ [']'])) = .code := by
  rw [Region.after_append, indexing.front.closed]
  change Region.code.after (content ++ [']']) = .code
  rw [Region.after_append, indexing.within.closed]
  rfl

/-- What the scan has read when it comes to the end. -/
theorem seen (indexing : Indexing pos s opening key ts a content b) (before : Text) :
    (mask (a ++ '[' :: (content ++ [']']))).reverse ++ before =
      ']' :: ((mask content).reverse ++ '[' :: ((mask a).reverse ++ before)) := by
  have opens (x : Text) : mask ('[' :: x) = '[' :: mask x := rfl
  have closes : mask [']'] = [']'] := rfl
  rw [mask_append indexing.front.closed, opens, mask_append indexing.within.closed, closes]
  simp

/-- Only the opening bracket counts, and what stands after the indexing. -/
theorem based_iff (indexing : Indexing pos s opening key ts a content b)
    (isOpen : opening.lexeme = .punct .openBracket) (noOpen : key.lexeme ≠ .punct .openBracket)
    (noOpening : closing.lexeme ≠ .punct .openBracket) (before : Text) :
    Based before pos s (opening :: key :: closing :: ts) ↔
      endsInVariable ((mask a).reverse ++ before) = true ∧
        Based (']' :: ((mask content).reverse ++ '[' :: ((mask a).reverse ++ before)))
          (pos + (a ++ '[' :: (content ++ [']'])).length) b ts := by
  have view : (mask s).take (opening.pos - pos) = mask a := by
    rw [indexing.whole, indexing.stands, Nat.add_sub_cancel_left, List.append_assoc,
      mask_append indexing.front.closed, List.take_left' (length_mask a)]
  have later : Based before pos s ts ↔ _ :=
    indexing.whole ▸ based_skip indexing.closed indexing.later
  rw [indexing.seen] at later
  rw [Based, List.forall_mem_cons, view, ← later]
  exact and_congr (by simp [isOpen]) ((based_other noOpen).trans (based_other noOpening))

end Indexing

/-- The scan passes exactly if every bracket opens after a variable and around a key that is
allowed. -/
theorem bracketFaultFrom_lexed {lexs : List Lexeme} (keyed : Expr.Keyed lexs) :
    ∀ {pos : Nat} {s : Text} {ts : List Token} (before : Text), Lexed pos s ts →
      ts.map Token.lexeme = lexs → (bracketFaultFrom limit before none (mask s) s = none ↔
        AllowedKeys limit ts ∧ Based before pos s ts) := by
  -- Along the layout and the other tokens the scan goes on; an indexing it decides at once.
  induction keyed with
  | nil =>
    intro pos s ts before lexed same
    cases List.map_eq_nil_iff.1 same
    rw [← List.append_nil s, bracketFaultFrom_unbracketed (unbracketed_layout lexed)]
    exact ⟨fun _ => ⟨fun _ _ inside => absurd (List.infix_nil.1 inside) nofun, nofun⟩, fun _ => rfl⟩
  | other opens closes _ ih =>
    intro pos s ts before lexed same
    obtain ⟨t, more, rfl, rfl, rfl⟩ := List.map_eq_cons_iff.1 same
    obtain ⟨a, b, rfl, stands, front, spells, _, lexed⟩ := lexed.split (l := [])
    have plain := (unbracketed_layout front).append (unbracketed_token spells opens closes)
    rw [stands, Nat.add_assoc, ← List.length_append] at lexed
    rw [← List.append_assoc, bracketFaultFrom_unbracketed plain, allowedKeys_other opens,
      based_other opens, based_skip plain.closed lexed]
    exact ih _ lexed rfl
  | key known _ ih =>
    intro pos s ts before lexed same
    obtain ⟨opening, _, rfl, isOpen, same⟩ := List.map_eq_cons_iff.1 same
    obtain ⟨key, _, rfl, rfl, last⟩ := List.map_eq_cons_iff.1 same
    obtain ⟨closing, more, rfl, isClose, rfl⟩ := List.map_eq_cons_iff.1 last
    have noOpen := Expr.ne_punct_of_key known .openBracket
    have noClose := Expr.ne_punct_of_key known .closeBracket
    have noOpening : closing.lexeme ≠ .punct .openBracket := by rw [isClose]; decide
    obtain ⟨a, content, b, indexing⟩ := indexing_of_lexed lexed isOpen noOpen noClose isClose
    have rest := ih (']' :: ((mask content).reverse ++ '[' :: ((mask a).reverse ++ before)))
      indexing.later rfl
    rw [indexing.based_iff isOpen noOpen noOpening, allowedKeys_key isOpen noOpen,
      allowedKeys_other noOpening, indexing.whole, List.append_assoc, List.cons_append,
      List.append_assoc, bracketFaultFrom_unbracketed indexing.front, Option.map_none,
      List.singleton_append, bracketFaultFrom_indexing indexing.within, indexing.trimmed, AllowedKey,
      ← Bool.or_eq_true]
    cases endsInVariable ((mask a).reverse ++ before) with
    | false => simp
    | true =>
      cases isIndex limit key.source || isQuotedKey key.source with
      | false => simp
      | true => simpa using rest

theorem isIndex_count {n : Int} (positive : 0 < n) {source : Text} :
    isIndex (.count n) source = true ↔
      source ≠ [] ∧ (∀ c ∈ source, c.isDigit = true) ∧ (source.length : Int) ≤ n := by
  obtain ⟨k, rfl⟩ := Int.eq_ofNat_of_zero_le (Int.le_of_lt positive)
  have count : isIndex (.count k) source =
      (!source.isEmpty && source.all Char.isDigit && decide (source.length ≤ k)) := rfl
  simp [count, and_assoc]

/-- Only an integer is written in digits alone. -/
theorem integer_of_digits {lexeme : Lexeme} {source : Text} (spells : Spells lexeme source)
    (digits : ∀ c ∈ source, c.isDigit = true) : ∃ n, lexeme = .integer n := by
  cases spells with
  | integer => exact ⟨_, rfl⟩
  | decimal => cases digits '.' (by simp)
  | text => cases (Text.isDigit_quote _).symm.trans (digits _ List.mem_cons_self)
  | punct p =>
    obtain ⟨c, tail, shape⟩ := List.exists_cons_of_ne_nil (Punct.text_ne_nil p)
    have inside : c ∈ p.text := by simp [shape]
    have outside := (Text.punct_char inside).2.2.2.1
    cases outside.symm.trans (Text.isNameChar_of_isDigit (digits c inside))
  | name named =>
    cases source with
    | nil => cases named
    | cons c rest =>
      simp only [Text.isName, Bool.and_eq_true] at named
      have start := Text.isNameStart_of_isDigit (digits c List.mem_cons_self)
      cases start.symm.trans named.1

theorem isQuotedKey_digits {source : Text} (digits : ∀ c ∈ source, c.isDigit = true) :
    isQuotedKey source = false := by
  cases source with
  | nil => rfl
  | cons c rest =>
    have digit := digits c List.mem_cons_self
    rw [isQuotedKey, Text.ofChar?_of_isNameChar (Text.isNameChar_of_isDigit digit)]

/-- Every integer index is written with no more digits than this. -/
def ShortIndexes (limit : Int) (ts : List Token) : Prop :=
  ∀ opening key, [opening, key] <:+: ts → opening.lexeme = .punct .openBracket →
    ∀ n, key.lexeme = .integer n → (key.source.length : Int) ≤ limit

theorem shortIndexes_of_allowed {n : Int} (positive : 0 < n)
    (spells : ∀ t ∈ ts, Spells t.lexeme t.source) (allowed : AllowedKeys (.count n) ts) :
    ShortIndexes n ts := by
  intro opening key inside isOpen k isInteger
  have written := spells key (inside.subset (by simp))
  rw [isInteger] at written
  cases written with
  | integer digits =>
    rcases allowed opening key inside isOpen with index | quoted
    · exact ((isIndex_count positive).1 index).2.2
    · rw [isQuotedKey_digits digits.2] at quoted
      cases quoted

/-- Where the keys are allowed under one limit, only the digits of indexes count under another. -/
theorem allowedKeys_count {n n' : Int} (positive : 0 < n) (positive' : 0 < n')
    (spells : ∀ t ∈ ts, Spells t.lexeme t.source) (allowed : AllowedKeys (.count n) ts) :
    AllowedKeys (.count n') ts ↔ ShortIndexes n' ts := by
  refine ⟨shortIndexes_of_allowed positive' spells, ?_⟩
  intro short opening key inside isOpen
  rcases allowed opening key inside isOpen with index | quoted
  · obtain ⟨filled, digits, _⟩ := (isIndex_count positive).1 index
    obtain ⟨k, isInteger⟩ := integer_of_digits (spells key (inside.subset (by simp))) digits
    exact .inl ((isIndex_count positive').2
      ⟨filled, digits, short opening key inside isOpen k isInteger⟩)
  · exact .inr quoted

/-- Under proper limits a text that passes with one passes with another exactly if its integer
indexes are short enough. -/
theorem bracketFault?_count {n n' : Int} {s : Text} (positive : 0 < n) (positive' : 0 < n')
    (lexed : Lexed 0 s ts) (keyed : Expr.Keyed (ts.map Token.lexeme))
    (passes : bracketFault? (.count n) s = none) :
    bracketFault? (.count n') s = none ↔ ShortIndexes n' ts := by
  obtain ⟨allowed, based⟩ := (bracketFaultFrom_lexed keyed [] lexed rfl).1 passes
  rw [← allowedKeys_count positive positive' lexed.spells allowed]
  exact (bracketFaultFrom_lexed keyed [] lexed rfl).trans (and_iff_left based)

end Scan
end BranchGate
