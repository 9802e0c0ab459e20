import Mathlib.Data.List.Forall2
import Mathlib.Data.List.Perm.Basic

/-! Lists compared member by member, mapped lists and neighbours in them, and the first of all
positions that have a property. -/
namespace BranchGate

theorem forall₂_exists_right {α β : Type} {r : α → β → Prop} {xs : List α} {ys : List β}
    (related : List.Forall₂ r xs ys) : ∀ x ∈ xs, ∃ y ∈ ys, r x y := by
  induction related with
  | nil => exact nofun
  | cons first _ ih =>
    refine List.forall_mem_cons.2 ⟨⟨_, List.mem_cons_self, first⟩, fun x member => ?_⟩
    obtain ⟨y, member', holds⟩ := ih x member
    exact ⟨y, List.mem_cons_of_mem _ member', holds⟩

theorem any_congr_of_mem {α : Type} {xs : List α} {f g : α → Bool} (same : ∀ a ∈ xs, f a = g a) :
    xs.any f = xs.any g := by
  rw [Bool.eq_iff_iff, List.any_eq_true, List.any_eq_true]
  exact exists_congr fun a => and_congr_right fun member => by rw [same a member]

theorem pair_of_infix_map {α β : Type} {f : α → β} {xs : List α} {a b : β}
    (written : [a, b] <:+: xs.map f) : ∃ x y, [x, y] <:+: xs ∧ f x = a ∧ f y = b := by
  obtain ⟨part, inside, same⟩ := List.infix_map_iff.1 written
  obtain ⟨x, _, rfl, isFirst, same⟩ := List.map_eq_cons_iff.1 same.symm
  obtain ⟨y, _, rfl, isSecond, none⟩ := List.map_eq_cons_iff.1 same
  rw [List.map_eq_nil_iff.1 none] at inside
  exact ⟨x, y, inside, isFirst, isSecond⟩

/-- A list that has the members of a mapped list is a mapped list itself. -/
theorem exists_map_of_perm {α β : Type} {f : α → β} {xs : List β} {ys : List α}
    (perm : xs.Perm (ys.map f)) : ∃ zs : List α, zs.Perm ys ∧ xs = zs.map f := by
  have mapped : List.Forall₂ (fun b a => b = f a) (ys.map f) ys := by
    rw [List.forall₂_map_left_iff]
    exact List.forall₂_same.2 fun _ _ => rfl
  obtain ⟨zs, related, perm⟩ := List.perm_comp_forall₂ perm mapped
  refine ⟨zs, perm, ?_⟩
  rw [← List.forall₂_eq_eq_eq, List.forall₂_map_right_iff]
  exact related

/-- What is found holds at the first position where anything does; nothing is found if nothing holds
anywhere. -/
def First {α : Type} (p : Nat → α → Prop) : Option α → Prop
  | none => ∀ i a, ¬p i a
  | some a => ∃ i, p i a ∧ ∀ k < i, ∀ b, ¬p k b

section First

variable {α : Type} {p : Nat → α → Prop} {found : Option α} {a : α}

theorem First.here (holds : p 0 a) : First p (some a) :=
  ⟨0, holds, fun k early => absurd early (Nat.not_lt_zero k)⟩

theorem First.later (misses : ∀ a, ¬p 0 a)
    (later : First (fun i => p (i + 1)) found) : First p found := by
  cases found with
  | none =>
    intro i
    cases i with
    | zero => exact misses
    | succ i => exact later i
  | some a =>
    obtain ⟨i, holds, first⟩ := later
    refine ⟨i + 1, holds, fun k early => ?_⟩
    cases k with
    | zero => exact misses
    | succ k => exact first k (Nat.lt_of_succ_lt_succ early)

theorem First.eq_none_iff (first : First p found) : found = none ↔ ∀ i a, ¬p i a := by
  cases found with
  | none => exact iff_of_true rfl first
  | some a =>
    obtain ⟨i, holds, _⟩ := first
    exact iff_of_false nofun fun none => none i a holds

theorem First.eq_some_iff (first : First p found) (unique : ∀ i a b, p i a → p i b → a = b) :
    found = some a ↔ ∃ i, p i a ∧ ∀ k < i, ∀ b, ¬p k b := by
  constructor
  · rintro rfl
    exact first
  · rintro ⟨i, holds, before⟩
    cases found with
    | none => exact absurd holds (first i a)
    | some b =>
      obtain ⟨j, holds', before'⟩ := first
      have same : i = j := by
        refine Nat.le_antisymm (Nat.le_of_not_lt fun early => ?_) (Nat.le_of_not_lt fun early => ?_)
        · exact before j early b holds'
        · exact before' i early a holds
      rw [unique i a b holds (same ▸ holds')]

end First

end BranchGate
