import Mathlib.Data.List.Forall2

/-! Steps of a computation that may fail, taken apart. -/
namespace BranchGate

variable {ε ε' α β : Type}

theorem eq_ok_of_toOption {x : Except ε α} {a : α} (answer : x.toOption = some a) : x = .ok a := by
  cases x with
  | error e => cases answer
  | ok b => exact congrArg Except.ok (Option.some.inj answer)

theorem map_eq_ok {x : Except ε α} {f : α → β} {b : β} :
    x.map f = .ok b ↔ ∃ a, x = .ok a ∧ f a = b := by
  cases x with
  | error e => simp [Except.map]
  | ok a => simp [Except.map]

theorem mapError_eq_ok {x : Except ε α} {f : ε → ε'} {a : α} :
    x.mapError f = .ok a ↔ x = .ok a := by
  cases x with
  | error e =>
    constructor
    · rintro ⟨⟩
    · rintro ⟨⟩
  | ok b =>
    constructor
    · rintro ⟨⟩; rfl
    · rintro ⟨⟩; rfl

theorem bind_eq_ok {x : Except ε α} {k : α → Except ε β} {b : β} :
    x >>= k = .ok b ↔ ∃ a, x = .ok a ∧ k a = .ok b := by
  cases x with
  | error e => simp [bind, Except.bind]
  | ok a => simp [bind, Except.bind]

/-- A step that only checks. -/
theorem check_eq_ok {x : Except ε Unit} {k : Unit → Except ε β} {b : β} :
    x >>= k = .ok b ↔ x = .ok () ∧ k () = .ok b := by
  rw [bind_eq_ok]
  exact ⟨fun ⟨_, passes⟩ => passes, fun passes => ⟨(), passes⟩⟩

theorem bind_eq_error {x : Except ε α} {k : α → Except ε β} {e : ε} :
    x >>= k = .error e ↔ x = .error e ∨ ∃ a, x = .ok a ∧ k a = .error e := by
  cases x with
  | error e => simp [bind, Except.bind]
  | ok a => simp [bind, Except.bind]

/-- Steps one after the other give what each of them gives. -/
theorem mapM_eq_ok {f : α → Except ε β} {xs : List α} {bs : List β} :
    xs.mapM f = .ok bs ↔ List.Forall₂ (fun x b => f x = .ok b) xs bs := by
  induction xs generalizing bs with
  | nil => simp [pure, Except.pure, eq_comm]
  | cons x xs ih =>
    rw [List.mapM_cons, bind_eq_ok, List.forall₂_cons_left_iff]
    refine exists_congr fun b => ?_
    rw [bind_eq_ok]
    constructor
    · rintro ⟨first, more, others, ⟨⟩⟩
      exact ⟨more, first, ih.1 others, rfl⟩
    · rintro ⟨more, first, others, rfl⟩
      exact ⟨first, more, ih.2 others, rfl⟩

theorem mapM_eq_some {f : α → Option β} {xs : List α} {bs : List β} :
    xs.mapM f = some bs ↔ List.Forall₂ (fun x b => f x = some b) xs bs := by
  induction xs generalizing bs with
  | nil => simp [eq_comm]
  | cons x xs ih =>
    rw [List.mapM_cons, List.forall₂_cons_left_iff]
    refine Option.bind_eq_some_iff.trans (exists_congr fun b => ?_)
    constructor
    · rintro ⟨first, rest⟩
      obtain ⟨more, others, ⟨⟩⟩ := Option.bind_eq_some_iff.1 rest
      exact ⟨more, first, ih.1 others, rfl⟩
    · rintro ⟨more, first, others, rfl⟩
      exact ⟨first, Option.bind_eq_some_iff.2 ⟨more, ih.2 others, rfl⟩⟩

theorem isSome_mapM {f : α → Option β} {xs : List α} :
    (xs.mapM f).isSome = true ↔ ∀ x ∈ xs, (f x).isSome = true := by
  induction xs with
  | nil => simp
  | cons x xs ih =>
    rw [List.forall_mem_cons, ← ih, List.mapM_cons]
    cases f x with
    | none => simp
    | some b => cases xs.mapM f <;> simp

/-- Steps that all succeed succeed one after the other. -/
theorem mapM_succeeds {f : α → Except ε β} {xs : List α} (succeed : ∀ x ∈ xs, ∃ b, f x = .ok b) :
    ∃ bs, xs.mapM f = .ok bs := by
  induction xs with
  | nil => exact ⟨[], rfl⟩
  | cons x xs ih =>
    rw [List.forall_mem_cons] at succeed
    obtain ⟨b, first⟩ := succeed.1
    obtain ⟨bs, others⟩ := ih succeed.2
    refine ⟨b :: bs, ?_⟩
    rw [List.mapM_cons]
    exact bind_eq_ok.2 ⟨b, first, bind_eq_ok.2 ⟨bs, others, rfl⟩⟩

end BranchGate
