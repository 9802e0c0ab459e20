import BranchGate.Proofs.Expr.Soundness
import BranchGate.Proofs.Mask.Tokens

/-! Runs of digits that are too long to be read. Where reading fails for the number of digits, the
text has such a run outside its strings. -/
namespace BranchGate

/-- Outside its strings the text has more digits in a row than a number may have. -/
def LongRun (s : Text) : Prop :=
  ∃ a ds b, s = a ++ (ds ++ b) ∧ Region.code.after a = .code ∧
    (∀ d ∈ ds, d.isDigit = true) ∧ digitLimit < ds.length

theorem LongRun.after {a b : Text} (closed : Region.code.after a = .code) (long : LongRun b) :
    LongRun (a ++ b) := by
  obtain ⟨x, ds, y, rfl, before, digits, beyond⟩ := long
  refine ⟨a ++ x, ds, y, by simp, ?_, digits, beyond⟩
  rw [Region.after_append, closed, before]

theorem readDigits_eq_error {ds : Text} {cause : ReadError} (failed : readDigits ds = .error cause) :
    digitLimit < ds.length := by
  unfold readDigits at failed
  split at failed
  next long => exact long
  next => cases failed

namespace Token

/-- A number is its leading digits, with or without places after a point. -/
theorem splitNumber_source (s : Text) :
    (splitNumber s).1 = s.takeWhile Char.isDigit ∨
      ∃ places, (splitNumber s).1 = s.takeWhile Char.isDigit ++ '.' :: places := by
  unfold splitNumber
  split
  next d rest _ =>
    split
    · exact .inr ⟨_, rfl⟩
    · exact .inl rfl
  next => exact .inl rfl

theorem splitNumber_unread {c : Char} {rest : Text} {cause : ReadError} (digit : c.isDigit = true)
    (failed : readNumber (splitNumber (c :: rest)).1 = .error cause) : LongRun (c :: rest) := by
  have digits : IsDigits ((c :: rest).takeWhile Char.isDigit) := isDigits_takeWhile digit
  rcases splitNumber_source (c :: rest) with integer | ⟨places, decimal⟩
  · rw [integer, readNumber_whole digits] at failed
    cases read : readDigits ((c :: rest).takeWhile Char.isDigit) with
    | ok n => rw [read] at failed; cases failed
    | error other =>
      exact ⟨[], _, (c :: rest).dropWhile Char.isDigit, List.takeWhile_append_dropWhile.symm, rfl,
        digits.2, readDigits_eq_error read⟩
  · rw [decimal, readNumber_decimal digits] at failed
    cases failed

/-- Only a number fails to be read. -/
theorem split_unread {s : Text} {piece : Piece} {cause : ReadError} (cut : split s = some piece)
    (failed : piece.read = .error cause) : LongRun s := by
  cases s with
  | nil => cases cut
  | cons c rest =>
    simp only [split] at cut
    split at cut
    next digit =>
      cases cut
      exact splitNumber_unread digit failed
    next =>
      split at cut
      next => cases cut; cases failed
      next =>
        split at cut
        next =>
          obtain ⟨_, _, rfl⟩ := Option.map_eq_some_iff.1 cut
          cases failed
        next =>
          obtain ⟨_, _, rfl⟩ := Option.map_eq_some_iff.1 cut
          cases failed

theorem lexFrom_tooManyDigits {pos : Nat} {s : Text} {count : Nat}
    (failed : lexFrom pos s = .error (.tooManyDigits count)) : LongRun s := by
  fun_induction lexFrom pos s with
  | case1 => cases failed
  | case2 pos c rest layout ih =>
    have blank : ∀ d ∈ [c], Text.isBlank d = true := by simpa using Text.isBlank_of_isLayout layout
    exact (ih failed).after (a := [c]) (mask_blank blank).2
  | case3 => cases failed
  | case4 pos c rest ink piece cut lexeme read cause following ih =>
    cases failed
    rw [← (split_append cut).1]
    exact (ih following).after (split_spells cut read).1.closed
  | case5 pos c rest ink piece cut cause unread => exact split_unread cut unread
  | case6 => cases failed

theorem Lexed.longRun {s : Text} {ts : List Token} {t : Token} (lexed : Lexed 0 s ts)
    (member : t ∈ ts) (long : t.lexeme.isOverlong = true) : LongRun s := by
  obtain ⟨l, r, rfl⟩ := List.append_of_mem member
  obtain ⟨a, b, rfl, _, front, spells, _⟩ := lexed.split
  refine .after front.closed ?_
  cases shape : t.lexeme with
  | name n =>
    rw [shape] at spells long
    rw [spells.name_source.1]
    simp only [Lexeme.isOverlong, Option.any_eq_true, decide_eq_true_eq] at long
    obtain ⟨ds, known, beyond⟩ := long
    unfold variableDigits? at known
    split at known
    next rest =>
      split at known
      next digits =>
        cases known
        simp only [Bool.and_eq_true, List.all_eq_true] at digits
        exact ⟨['_', '_', 'v'], ds, b, rfl, rfl, digits.2, beyond⟩
      next => cases known
    next => cases known
  | integer | decimal | text | punct => rw [shape] at long; cases long

end Token

theorem Expr.read_tooManyDigits {allowed : Expr.Allowance} {s : Text} {count : Nat}
    (failed : Expr.read allowed s = .error (.tooManyDigits count)) : LongRun s := by
  rcases bind_eq_error.1 failed with failed | ⟨ts, lexed, failed⟩
  · exact Token.lexFrom_tooManyDigits failed
  · have laid := Token.lexed_of_lex lexed
    rcases bind_eq_error.1 failed with failed | ⟨whole, _, failed⟩
    · obtain ⟨t, member, long⟩ :=
        (operation_reads (unary_reads allowed allowed.depth.value.toNat) ts).blames failed
      exact laid.longRun member long
    · split at failed <;> cases failed

end BranchGate
