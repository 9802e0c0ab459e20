import BranchGate.Mask
import BranchGate.Proofs.Token.Lexed

/-! The mask and the lexer agree on what is a string: in a text that lexes, the masked characters
are those between the quotes of string tokens. -/
namespace BranchGate

theorem Region.after_append (region : Region) (a b : Text) :
    region.after (a ++ b) = (region.after a).after b := List.foldl_append

theorem length_mask (t : Text) : (mask t).length = t.length := length_maskFrom .code t

theorem mask_append {a : Text} (closed : Region.code.after a = .code) (b : Text) :
    mask (a ++ b) = mask a ++ mask b := by
  rw [mask, maskFrom_append, closed]
  rfl

theorem mask_unquoted {s : Text} (unquoted : ∀ c ∈ s, Quote.ofChar? c = none) :
    mask s = s ∧ Region.code.after s = .code := by
  induction s with
  | nil => exact ⟨rfl, rfl⟩
  | cons c rest ih =>
    have plain : Region.code.next c = .code := by
      rw [Region.next, unquoted c List.mem_cons_self]
    obtain ⟨same, closed⟩ := ih fun d inside => unquoted d (List.mem_cons_of_mem c inside)
    constructor
    · rw [mask, maskFrom, plain]
      exact congrArg (c :: ·) same
    · rw [Region.after, List.foldl_cons, plain]
      exact closed

theorem mask_blank {s : Text} (blank : ∀ c ∈ s, Text.isBlank c = true) :
    mask s = s ∧ Region.code.after s = .code :=
  mask_unquoted fun c inside => Text.ofChar?_of_isBlank (blank c inside)

theorem mask_layout {c : Char} (layout : Text.isLayout c = true) (rest : Text) :
    mask (c :: rest) = c :: mask rest := by
  have blank : ∀ d ∈ [c], Text.isBlank d = true := by simpa using Text.isBlank_of_isLayout layout
  obtain ⟨same, closed⟩ := mask_blank blank
  rw [← List.singleton_append, mask_append closed, same]
  rfl

namespace Token

theorem Quoted.masked {q : Quote} {body : Text} (quoted : Quoted q body) :
    maskFrom (.literal q) body = List.replicate body.length ' ' ∧
      (Region.literal q).after body = .literal q := by
  induction quoted with
  | nil => exact ⟨rfl, rfl⟩
  | plain bare slash _ ih =>
    obtain ⟨spaces, inside⟩ := ih
    simp [maskFrom, Region.shown, Region.next, Region.after, bare, slash, spaces,
      List.replicate_succ]
    exact inside
  | escape _ _ ih =>
    obtain ⟨spaces, inside⟩ := ih
    have slash : '\\' ≠ q.char := by cases q <;> decide
    simp [maskFrom, Region.shown, Region.next, Region.after, slash, spaces, List.replicate_succ]
    exact inside

theorem Quoted.mask_string {q : Quote} {body : Text} (quoted : Quoted q body) :
    mask (q.char :: (body ++ [q.char])) =
        q.char :: (List.replicate body.length ' ' ++ [q.char]) ∧
      Region.code.after (q.char :: (body ++ [q.char])) = .code := by
  obtain ⟨spaces, inside⟩ := quoted.masked
  have opens : Region.code.next q.char = .literal q := by
    simp only [Region.next, Quote.ofChar?_char]
  have closes : (Region.literal q).next q.char = .code := by
    cases q <;> decide
  constructor
  · rw [mask, maskFrom, opens, maskFrom_append, inside, spaces]
    simp [maskFrom, Region.shown]
  · rw [Region.after, List.foldl_cons, opens, List.foldl_append]
    rw [Region.after] at inside
    rw [inside]
    exact closes

/-- A token leaves the mask in code, so what follows is masked as if it stood alone. -/
theorem Spells.closed {lexeme : Lexeme} {source : Text} (spells : Spells lexeme source) :
    Region.code.after source = .code := by
  rcases spells.string_or_code with ⟨q, body, _, rfl, quoted⟩ | ⟨_, unquoted⟩
  · exact quoted.mask_string.2
  · exact (mask_unquoted unquoted).2

/-- The position lies strictly between the quotes of a string. -/
def quotes (t : Token) (i : Nat) : Bool :=
  match t.lexeme with
  | .text _ => t.pos < i && i + 1 < t.pos + t.source.length
  | _ => false

theorem quotes_range {t : Token} {i : Nat} (inside : t.quotes i = true) :
    t.pos < i ∧ i + 1 < t.pos + t.source.length := by
  unfold quotes at inside
  split at inside
  · simpa using inside
  · cases inside

theorem quotes_string (data : Text) (a b : Char) (body : Text) (pos i : Nat) :
    quotes ⟨.text data, a :: (body ++ [b]), pos⟩ (pos + (i + 1)) = decide (i < body.length) := by
  rw [Bool.eq_iff_iff]
  simp only [quotes, Bool.and_eq_true, decide_eq_true_eq, List.length_cons, List.length_append,
    List.length_nil]
  omega

theorem Spells.mask_source {lexeme : Lexeme} {source : Text} (spells : Spells lexeme source)
    (pos i : Nat) : (mask source)[i]? = source[i]?.map fun c =>
      if quotes ⟨lexeme, source, pos⟩ (pos + i) then ' ' else c := by
  rcases spells.string_or_code with ⟨q, body, rfl, rfl, quoted⟩ | ⟨code, unquoted⟩
  · rw [quoted.mask_string.1]
    cases i with
    | zero => simp [quotes]
    | succ i =>
      rw [quotes_string, List.getElem?_cons_succ, List.getElem?_cons_succ]
      by_cases within : i < body.length
      · simp [List.getElem?_append_left, within]
      · rw [List.getElem?_append_right (by simpa using within),
          List.getElem?_append_right (by omega)]
        simp [within]
  · have outside : quotes ⟨lexeme, source, pos⟩ (pos + i) = false := by
      cases lexeme with
      | text data => exact absurd rfl (code data)
      | integer | decimal | punct | name => rfl
    simp [(mask_unquoted unquoted).1, outside]

/-- Tokens that stand later quote nothing here. -/
theorem Lexed.any_quotes_early {pos : Nat} {s : Text} {ts : List Token} (lexed : Lexed pos s ts)
    {i : Nat} (early : i ≤ pos) : ts.any (·.quotes i) = false := by
  rw [List.any_eq_false]
  intro t member inside
  have late := (lexed.source_at t member).1
  have after := (quotes_range inside).1
  omega

theorem Lexed.mask_getElem? {pos : Nat} {s : Text} {ts : List Token} (lexed : Lexed pos s ts)
    (i : Nat) : (mask s)[i]? = s[i]?.map fun c =>
      if ts.any (·.quotes (pos + i)) then ' ' else c := by
  induction lexed generalizing i with
  | done => rfl
  | @layout pos c rest ts layout more ih =>
    rw [mask_layout layout]
    cases i with
    | zero => simp [more.any_quotes_early (Nat.le_succ pos)]
    | succ i => simpa [Nat.add_assoc, Nat.add_comm 1 i] using ih i
  | @token pos lexeme source rest ts spells _ more ih =>
    have length := length_mask source
    rw [mask_append spells.closed, List.any_cons]
    by_cases within : i < source.length
    · rw [List.getElem?_append_left (by omega), List.getElem?_append_left within,
        spells.mask_source pos, more.any_quotes_early (by omega), Bool.or_false]
    · have outside : quotes ⟨lexeme, source, pos⟩ (pos + i) = false := by
        cases inside : quotes ⟨lexeme, source, pos⟩ (pos + i) with
        | false => rfl
        | true => have := (quotes_range inside).2; simp only at this; omega
      have moved : pos + source.length + (i - source.length) = pos + i := by omega
      rw [List.getElem?_append_right (by omega), List.getElem?_append_right (by omega), length,
        outside, Bool.false_or, ih, moved]

/-- Each string token stands at its position, from its opening quote to the first bare quote of
that kind; masking blanks what lies between such quotes and keeps everything else. -/
theorem mask_blanks_strings {s : Text} {ts : List Token} (lexed : lex s = .ok ts) :
    (∀ t ∈ ts, ∀ data, t.lexeme = .text data → ∃ q body, t.source = q.char :: (body ++ [q.char]) ∧
      Quoted q body ∧ data = unescape body ∧ t.source <+: s.drop t.pos) ∧
    mask s = s.mapIdx fun i c => if ts.any (·.quotes i) then ' ' else c := by
  have laid := lexed_of_lex lexed
  constructor
  · intro t member data isText
    have stands : t.source <+: s.drop t.pos := (laid.source_at t member).2
    rcases (laid.spells t member).string_or_code with ⟨q, body, same, source, quoted⟩ | ⟨code, _⟩
    · rw [isText] at same
      exact ⟨q, body, source, quoted, Lexeme.text.inj same, stands⟩
    · exact absurd isText (code data)
  · apply List.ext_getElem?
    intro i
    rw [laid.mask_getElem?, List.getElem?_mapIdx, Nat.zero_add]

/-- Both kinds of quote, one of them escaped and the other one inside a string. -/
theorem mask_mixed_quotes :
    ∃ ts, lex ("'it\\'s' == \"'[0]\"" : String).toList = .ok ts ∧ ts.length = 3 ∧
      mask ("'it\\'s' == \"'[0]\"" : String).toList =
        ("'it\\'s' == \"'[0]\"" : String).toList.mapIdx fun i c =>
          if ts.any (·.quotes i) then ' ' else c := by
  have lexed : lex ("'it\\'s' == \"'[0]\"" : String).toList = .ok [
      ⟨.text ("it's" : String).toList, ("'it\\'s'" : String).toList, 0⟩,
      ⟨.punct .looseEq, ("==" : String).toList, 8⟩,
      ⟨.text ("'[0]" : String).toList, ("\"'[0]\"" : String).toList, 11⟩] :=
    eq_ok_of_toOption (by decide +kernel)
  refine ⟨_, lexed, rfl, ?_⟩
  exact (mask_blanks_strings lexed).2

end Token
end BranchGate
