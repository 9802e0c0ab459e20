import BranchGate.Text

/-! Trimming takes blanks off both ends and nothing else. -/
namespace BranchGate.Text

theorem trimRight_padded {s r : Text} (right : ∀ c ∈ r, isBlank c = true)
    (last : ∀ c ∈ s.getLast?, isBlank c = false) : trimRight (s ++ r) = s := by
  have blank : ∀ c ∈ r.reverse, isBlank c = true := fun c inside =>
    right c (List.mem_reverse.1 inside)
  rw [trimRight, List.reverse_append, List.dropWhile_append_of_pos blank]
  cases reversed : s.reverse with
  | nil => simpa using reversed.symm
  | cons c rest =>
    have ink : isBlank c = false := last c (by simp [← List.head?_reverse, reversed])
    rw [List.dropWhile_cons_of_neg (by simp [ink]), ← reversed, List.reverse_reverse]

theorem trim_padded {l s r : Text} (left : ∀ c ∈ l, isBlank c = true)
    (right : ∀ c ∈ r, isBlank c = true) (first : ∃ c rest, s = c :: rest ∧ isBlank c = false)
    (last : ∀ c ∈ s.getLast?, isBlank c = false) : trim (l ++ (s ++ r)) = s := by
  obtain ⟨c, rest, rfl, ink⟩ := first
  rw [trim, List.dropWhile_append_of_pos left, List.cons_append,
    List.dropWhile_cons_of_neg (by simp [ink])]
  exact trimRight_padded right last

theorem trim_of_ink {t : Text} (ink : ∀ c ∈ t, isBlank c = false) : trim t = t := by
  cases t with
  | nil => rfl
  | cons c rest =>
    have trimmed := trim_padded (l := []) (r := []) nofun nofun
      ⟨c, rest, rfl, ink c List.mem_cons_self⟩ fun d last => ink d (List.mem_of_getLast? last)
    rwa [List.append_nil] at trimmed

theorem trimRight_prefix (t : Text) : ∃ r, t = trimRight t ++ r ∧ ∀ c ∈ r, isBlank c = true := by
  refine ⟨(t.reverse.takeWhile isBlank).reverse, ?_, ?_⟩
  · rw [trimRight, ← List.reverse_append, List.takeWhile_append_dropWhile, List.reverse_reverse]
  · intro c inside
    exact List.all_eq_true.1 List.all_takeWhile c (List.mem_reverse.1 inside)

theorem trim_infix (t : Text) : ∃ l r, t = l ++ (trim t ++ r) ∧ (∀ c ∈ l, isBlank c = true) ∧
    ∀ c ∈ r, isBlank c = true := by
  obtain ⟨r, split, right⟩ := trimRight_prefix (t.dropWhile isBlank)
  refine ⟨t.takeWhile isBlank, r, ?_, fun c => List.all_eq_true.1 List.all_takeWhile c, right⟩
  rw [trim, ← split, List.takeWhile_append_dropWhile]

theorem trim_of_allBlank {t : Text} (blank : allBlank t = true) : trim t = [] := by
  rw [trim, ← List.append_nil t, List.dropWhile_append_of_pos (List.all_eq_true.1 blank)]
  rfl

/-- Trimming leaves what is not blank. -/
theorem allBlank_trim (t : Text) : allBlank (trim t) = allBlank t := by
  obtain ⟨l, r, whole, left, right⟩ := trim_infix t
  have ends : allBlank l = true ∧ allBlank r = true :=
    ⟨List.all_eq_true.2 left, List.all_eq_true.2 right⟩
  have parts : allBlank t = (allBlank l && (allBlank (trim t) && allBlank r)) := by
    simp only [allBlank, ← List.all_append, ← whole]
  rw [parts, ends.1, ends.2, Bool.true_and, Bool.and_true]

end BranchGate.Text
