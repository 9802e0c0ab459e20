import BranchGate.Proofs.Mask.Strings

/-! Masking is a projection that keeps positions. A second pass no longer sees the backslashes of the
strings, but it stands inside a string wherever the first pass did, so it changes nothing. -/
namespace BranchGate

namespace Region

/-- Where a pass over the mask stands. It meets no backslash in a string, so it is never after one. -/
def settled : Region → Region
  | .code => .code
  | .literal q | .escaped q => .literal q

theorem next_literal_space (q : Quote) : (literal q).next ' ' = .literal q := by
  cases q <;> decide

theorem shown_literal_space (q : Quote) : (literal q).shown ' ' = ' ' := by
  cases q <;> decide

theorem quote_ne_backslash (q : Quote) : q.char ≠ '\\' := by cases q <;> decide

/-- A character is blanked exactly if the scan is inside a string before it and after it. -/
theorem shown_eq (region : Region) (c : Char) :
    region.shown c = if region = .code ∨ region.next c = .code then c else ' ' := by
  cases region with
  | code => simp [shown]
  | literal q =>
    by_cases closing : c = q.char
    · simp [shown, next, closing, quote_ne_backslash q]
    · have shown' : (literal q).shown c = ' ' := if_neg closing
      by_cases slash : c = '\\'
      · simp only [shown', next, if_pos slash, reduceCtorEq, or_self, if_false]
      · simp only [shown', next, if_neg slash, if_neg closing, reduceCtorEq, or_self, if_false]
  | escaped q => simp [shown, next]

/-- The second pass shows what the first one did. -/
theorem shown_settled (region : Region) (c : Char) :
    region.settled.shown (region.shown c) = region.shown c := by
  cases region with
  | code => rfl
  | literal q =>
    by_cases closing : c = q.char
    · simp only [settled, shown, if_pos closing]
    · simp only [settled, shown, if_neg closing, ite_self]
  | escaped q => exact shown_literal_space q

/-- A character and what is shown of it take both passes to the same place. -/
theorem next_settled (region : Region) (c : Char) :
    region.settled.next (region.shown c) = (region.next c).settled := by
  cases region with
  | code =>
    simp only [settled, shown, next]
    cases Quote.ofChar? c <;> rfl
  | literal q =>
    by_cases closing : c = q.char
    · subst closing
      simp only [settled, shown, next, if_true, if_neg (quote_ne_backslash q)]
    · have inner : (literal q).shown c = ' ' := if_neg closing
      rw [settled, inner, next_literal_space]
      by_cases slash : c = '\\'
      · simp only [next, if_pos slash, settled]
      · simp only [next, if_neg slash, if_neg closing, settled]
  | escaped q => exact next_literal_space q

end Region

theorem getElem?_maskFrom (region : Region) (t : Text) (i : Nat) :
    (maskFrom region t)[i]? = t[i]?.map (region.after (t.take i)).shown := by
  induction t generalizing region i with
  | nil => rfl
  | cons c rest ih =>
    cases i with
    | zero => rfl
    | succ i => exact ih (region.next c) i

theorem getElem?_mask (t : Text) (i : Nat) : (mask t)[i]? = t[i]?.map fun c =>
    if Region.code.after (t.take i) = .code ∨ Region.code.after (t.take (i + 1)) = .code then c
    else ' ' := by
  rw [mask, getElem?_maskFrom]
  cases stands : t[i]? with
  | none => rfl
  | some c =>
    have later : Region.code.after (t.take (i + 1)) = (Region.code.after (t.take i)).next c := by
      rw [List.take_add_one, stands, Region.after_append]
      rfl
    rw [Option.map_some, Option.map_some, Region.shown_eq, later]

theorem maskFrom_maskFrom (region : Region) (t : Text) :
    maskFrom region.settled (maskFrom region t) = maskFrom region t := by
  induction t generalizing region with
  | nil => rfl
  | cons c rest ih =>
    rw [maskFrom, maskFrom, region.shown_settled, region.next_settled, ih]

/-- The mask has the characters of the text in their places, or spaces: these where the scan is inside
a string before and after the character. It is its own mask, whether or not a string is left open, and
where the scan is outside strings it can be taken apart. -/
theorem mask_projects (t : Text) :
    (mask t).length = t.length ∧
    (∀ (i : Nat) (c : Char), (mask t)[i]? = some c → t[i]? = some c ∨ c = ' ') ∧
    (∀ i : Nat, (mask t)[i]? = t[i]?.map fun c =>
      if Region.code.after (t.take i) = .code ∨ Region.code.after (t.take (i + 1)) = .code then c
      else ' ') ∧
    mask (mask t) = mask t ∧
    ∀ a b, Region.code.after a = .code → mask (a ++ b) = mask a ++ mask b := by
  refine ⟨length_mask t, fun i c stands => ?_, getElem?_mask t, maskFrom_maskFrom .code t,
    fun a b closed => mask_append closed b⟩
  rw [getElem?_mask] at stands
  obtain ⟨d, here, shown⟩ := Option.map_eq_some_iff.1 stands
  split at shown
  · exact .inl (shown ▸ here)
  · exact .inr shown.symm

/-- A string with a quote in it, then one that is left open after a backslash. -/
theorem mask_projects_open :
    (mask ("['x\\" : String).toList)[1]? = some '\x27' ∧
      (("['x\\" : String).toList[1]? = some '\x27' ∨ '\x27' = ' ') ∧
      mask (mask ("['x\\" : String).toList) = mask ("['x\\" : String).toList ∧
      Region.code.after ("'it\\'s'" : String).toList = .code ∧
      mask (("'it\\'s'" : String).toList ++ ("['x\\" : String).toList) =
        mask ("'it\\'s'" : String).toList ++ mask ("['x\\" : String).toList := by
  have opens : (mask ("['x\\" : String).toList)[1]? = some '\x27' := by decide
  have closed : Region.code.after ("'it\\'s'" : String).toList = .code := by decide
  obtain ⟨_, shown, _, again, split⟩ := mask_projects ("['x\\" : String).toList
  exact ⟨opens, shown 1 _ opens, again, closed, split _ _ closed⟩

end BranchGate
