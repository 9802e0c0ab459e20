import BranchGate.Text
import Mathlib.Data.List.Basic
import Mathlib.Data.List.Induction
import Mathlib.Data.Nat.Init

/-! Brackets that stand in pairs, one pair after the other. Read from left to right, a bracket is
out of place if it opens inside a pair or closes outside; so is the end inside a pair. -/
namespace BranchGate.Scan

def isBracket (c : Char) : Bool := c == '[' || c == ']'

/-- Any number of pairs of brackets. -/
def Pairs (brackets : Text) : Prop := ∃ k, brackets = (List.replicate k ['[', ']']).flatten

/-- The brackets of a text alternate from an opening one to a closing one. -/
def Alternates (t : Text) : Prop := Pairs (t.filter isBracket)

/-- The last bracket of the text is an opening one, and it stands at the position. -/
def Opened (t : Text) (j : Nat) : Prop :=
  ∃ u v, t = u ++ '[' :: v ∧ u.length = j ∧ ∀ c ∈ v, isBracket c = false

/-- What cannot come next after a text whose brackets are in place: a bracket, or the end. -/
inductive Misplaced (t : Text) : Option Char → Prop
  | nested {j} : Opened t j → Misplaced t (some '[')
  | closed : (∀ j, ¬Opened t j) → Misplaced t (some ']')
  | left {j} : Opened t j → Misplaced t none

variable {t : Text} {c : Char} {j : Nat}

theorem Opened.lt (opened : Opened t j) : j < t.length := by
  obtain ⟨u, v, rfl, rfl, _⟩ := opened
  simp

theorem not_opened_nil : ¬Opened [] j := fun opened => absurd opened.lt (Nat.not_lt_zero j)

theorem opened_concat : Opened (t ++ [c]) j ↔
    c = '[' ∧ t.length = j ∨ isBracket c = false ∧ Opened t j := by
  constructor
  · rintro ⟨u, v, whole, here, clear⟩
    rcases List.eq_nil_or_concat' v with rfl | ⟨v, d, rfl⟩
    · obtain ⟨rfl, same⟩ := List.append_inj' whole rfl
      exact .inl ⟨List.head_eq_of_cons_eq same, here⟩
    · obtain ⟨others, last⟩ := List.forall_mem_append.1 clear
      rw [← List.cons_append, ← List.append_assoc] at whole
      obtain ⟨rfl, same⟩ := List.append_inj' whole rfl
      obtain rfl : c = d := List.head_eq_of_cons_eq same
      exact .inr ⟨last c List.mem_cons_self, u, v, rfl, here, others⟩
  · rintro (⟨rfl, here⟩ | ⟨last, u, v, rfl, here, clear⟩)
    · exact ⟨t, [], rfl, here, nofun⟩
    · refine ⟨u, v ++ [c], by simp, here, List.forall_mem_append.2 ⟨clear, ?_⟩⟩
      simpa using last

theorem Opened.unique {j' : Nat} (opened : Opened t j) (opened' : Opened t j') :
    j = j' := by
  induction t using List.reverseRecOn with
  | nil => exact absurd opened not_opened_nil
  | append_singleton t c ih =>
    rcases opened_concat.1 opened with ⟨rfl, here⟩ | ⟨other, opened⟩
    · rcases opened_concat.1 opened' with ⟨_, here'⟩ | ⟨other, _⟩
      · exact here.symm.trans here'
      · cases other
    · rcases opened_concat.1 opened' with ⟨rfl, _⟩ | ⟨_, opened'⟩
      · cases other
      · exact ih opened opened'

theorem opened_open : Opened (t ++ ['[']) t.length := opened_concat.2 (.inl ⟨rfl, rfl⟩)

theorem not_opened_close : ¬Opened (t ++ [']']) j := by
  intro opened
  rcases opened_concat.1 opened with ⟨isOpen, _⟩ | ⟨other, _⟩
  · cases isOpen
  · cases other

theorem opened_other (other : isBracket c = false) : Opened (t ++ [c]) j ↔ Opened t j := by
  rw [opened_concat]
  refine ⟨fun opened => ?_, fun opened => .inr ⟨other, opened⟩⟩
  rcases opened with ⟨rfl, _⟩ | ⟨_, opened⟩
  · cases other
  · exact opened

section Pairs

variable {l : Text}

theorem pairs_nil : Pairs [] := ⟨0, rfl⟩

theorem not_pairs_open : ¬Pairs ['['] := by
  rintro ⟨k, same⟩
  cases k <;> cases same

theorem not_pairs_nested : ¬Pairs ('[' :: '[' :: l) := by
  rintro ⟨k, same⟩
  cases k <;> cases same

theorem not_pairs_close : ¬Pairs (']' :: l) := by
  rintro ⟨k, same⟩
  cases k <;> cases same

theorem pairs_pair : Pairs ('[' :: ']' :: l) ↔ Pairs l := by
  constructor
  · rintro ⟨k, same⟩
    cases k with
    | zero => cases same
    | succ k => exact ⟨k, List.tail_eq_of_cons_eq (List.tail_eq_of_cons_eq same)⟩
  · rintro ⟨k, rfl⟩
    exact ⟨k + 1, rfl⟩

end Pairs

/-- Whether a bracket is open tells which brackets may follow. -/
theorem pairs_from {x : Text} (b : Bool) (state : b = true ↔ ∃ j, Opened t j) :
    Pairs ((if b then ['['] else []) ++ x.filter isBracket) ↔
      ∀ i, ¬Misplaced (t ++ x.take i) x[i]? := by
  induction x generalizing t b with
  | nil =>
    simp only [List.take_nil, List.append_nil, List.getElem?_nil, forall_const]
    cases b with
    | false =>
      refine iff_of_true pairs_nil fun misplaced => ?_
      cases misplaced with
      | left opened => cases state.2 ⟨_, opened⟩
    | true =>
      obtain ⟨j, opened⟩ := state.1 rfl
      exact iff_of_false not_pairs_open fun fine => fine (.left opened)
  | cons c x ih =>
    have rest (b : Bool) (state : b = true ↔ ∃ j, Opened (t ++ [c]) j) := ih b state
    simp only [List.append_assoc, List.singleton_append] at rest
    rw [← Nat.and_forall_add_one]
    simp only [List.take_zero, List.append_nil, List.take_succ_cons, List.getElem?_cons_zero,
      List.getElem?_cons_succ]
    by_cases opens : c = '['
    · subst opens
      rw [List.filter_cons_of_pos rfl]
      cases b with
      | false =>
        have first : ¬Misplaced t (some '[') := by
          intro misplaced
          cases misplaced with
          | nested opened => cases state.2 ⟨_, opened⟩
        exact (rest true (iff_of_true rfl ⟨_, opened_open⟩)).trans (and_iff_right first).symm
      | true =>
        obtain ⟨j, opened⟩ := state.1 rfl
        exact iff_of_false not_pairs_nested fun fine => fine.1 (.nested opened)
    · by_cases closes : c = ']'
      · subst closes
        rw [List.filter_cons_of_pos rfl]
        cases b with
        | false =>
          refine iff_of_false not_pairs_close fun fine => fine.1 (.closed fun j opened => ?_)
          cases state.2 ⟨j, opened⟩
        | true =>
          obtain ⟨j, opened⟩ := state.1 rfl
          have first : ¬Misplaced t (some ']') := by
            intro misplaced
            cases misplaced with
            | closed none => exact none j opened
          have closed : ∀ j, ¬Opened (t ++ [']']) j := fun _ => not_opened_close
          exact pairs_pair.trans ((rest false (iff_of_false nofun (not_exists.2 closed))).trans
            (and_iff_right first).symm)
      · have other : isBracket c = false := by simp [isBracket, opens, closes]
        have first : ¬Misplaced t (some c) := by
          intro misplaced
          cases misplaced with
          | nested => exact opens rfl
          | closed => exact closes rfl
        rw [List.filter_cons_of_neg (by simp [other])]
        refine (rest b (state.trans ?_)).trans (and_iff_right first).symm
        exact exists_congr fun j => (opened_other other).symm

theorem alternates_iff : Alternates t ↔ ∀ i, ¬Misplaced (t.take i) t[i]? := by
  have start := pairs_from (t := []) (x := t) false (by simp [not_opened_nil])
  simpa [Alternates] using start

end BranchGate.Scan
