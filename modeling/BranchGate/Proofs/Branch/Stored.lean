import BranchGate.Proofs.Branch.Documents

/-! Stored specs and what may be done to them later. The list may change and the other fields may
be set to anything, but each stored condition was submitted, passed the gate, and is as it was made;
so checking a spec anew depends on the other fields alone. -/
namespace BranchGate.BranchSpec

/-- What is done to a stored spec: conditions come and go one at a time, a stored condition is
assigned to in vain, and the two other fields are set. -/
inductive Edit
  | append (data : Value)
  | remove (index : Int)
  | assignInside (index : Int) (field : Text)
  | setNode (value : Value)
  | setDefault (value : Value)

namespace Edit

def change : Edit → Change
  | .append data => .append data
  | .remove index => .remove index
  | .assignInside index field => .assignInside index field
  | .setNode value => .assign nodeField value
  | .setDefault value => .assign defaultField value

/-- The data of a condition that comes with an edit. -/
def data? : Edit → Option Value
  | .append data => some data
  | _ => none

end Edit

/-- The spec after an edit; one that is refused changes nothing. -/
def settle (s : BranchSpec) (edit : Edit) : BranchSpec :=
  match s.perform edit.change with
  | .ok s' => s'
  | .error _ => s

def run (s : BranchSpec) (edits : List Edit) : BranchSpec := edits.foldl settle s

/-- The data of the conditions that a spec is made with. -/
def givenData (data : Value) : List Value :=
  match data.get? conditionsField with
  | some (.list items) => items
  | _ => []

/-- The data of all conditions that were ever submitted. -/
def submitted (data : Value) (edits : List Edit) : List Value :=
  givenData data ++ edits.filterMap Edit.data?

/-- Every stored condition was made from some of the data. -/
def MadeFrom (items : List Value) (s : BranchSpec) : Prop :=
  ∀ c ∈ s.conditions, ∃ d ∈ items, BranchCondition.ofValue d = .ok c

variable {items : List Value} {s : BranchSpec} {data : Value}

theorem madeFrom_of_ofValue (made : ofValue data = .ok s) : MadeFrom (givenData data) s := by
  obtain ⟨fields, rfl, fitting⟩ := ofValue_eq_ok.1 made
  rcases conditionsOf_eq_ok.1 fitting.conditions with ⟨_, none⟩ | ⟨items, given, related⟩
  · exact absurd none fitting.filled
  · have same : givenData (.record fields) = items := by
      simp only [givenData, Value.get?, given]
    rw [same]
    intro c member
    obtain ⟨d, member', accepted⟩ := forall₂_exists_right related.flip c member
    exact ⟨d, member', accepted⟩

/-- An edit brings in no condition but the one that comes with it. -/
theorem MadeFrom.settle (made : MadeFrom items s) (edit : Edit) :
    MadeFrom (items ++ edit.data?.toList) (s.settle edit) := by
  have kept : MadeFrom (items ++ edit.data?.toList) s := fun c member => by
    obtain ⟨d, listed, accepted⟩ := made c member
    exact ⟨d, List.mem_append_left _ listed, accepted⟩
  cases edit with
  | append data =>
    simp only [BranchSpec.settle, Edit.change, perform]
    cases accepted : BranchCondition.ofValue data with
    | error found => exact kept
    | ok c =>
      intro c' member
      rcases List.mem_append.1 member with old | new
      · exact kept c' old
      · rw [List.mem_singleton.1 new]
        exact ⟨data, by simp [Edit.data?], accepted⟩
  | remove index =>
    simp only [BranchSpec.settle, Edit.change, perform, BranchSpec.remove]
    split
    next removed =>
      split at removed
      next => cases removed
      next =>
        split at removed
        next i _ =>
          cases removed
          exact fun c member => kept c (List.mem_of_mem_eraseIdx member)
        next => cases removed
    next => exact kept
  | assignInside index field =>
    simp only [BranchSpec.settle, Edit.change, perform]
    cases position? s.conditions.length index with
    | none => exact kept
    | some i =>
      cases isApart field with
      | true => exact kept
      | false => exact kept
  | setNode value => exact kept
  | setDefault value => exact kept

theorem MadeFrom.run (made : MadeFrom items s) (edits : List Edit) :
    MadeFrom (items ++ edits.filterMap Edit.data?) (s.run edits) := by
  induction edits generalizing items s with
  | nil => simpa [BranchSpec.run] using made
  | cons edit edits ih =>
    have later := ih (made.settle edit)
    rw [List.append_assoc] at later
    cases edit <;> exact later

theorem MadeFrom.sound (made : MadeFrom items s) : ∀ c ∈ s.conditions, c.Sound := by
  intro c member
  obtain ⟨d, _, accepted⟩ := made c member
  obtain ⟨fields, _, fitting⟩ := BranchCondition.ofValue_eq_ok.1 accepted
  exact fitting.sound

/-- Nothing is stored that was not submitted and did not pass the gate, whatever is done to a spec
later: each stored condition keeps what it was made from, and the variables can be told. Checking
the spec anew succeeds exactly if it is complete, and then changes nothing; right after it was made
it is. -/
theorem stored_conditions_pass {made : BranchSpec} (accepted : ofValue data = .ok made)
    (edits : List Edit) :
    (∀ c ∈ (made.run edits).conditions, ∃ d ∈ submitted data edits, ∃ t,
      BranchCondition.ofValue d = .ok c ∧ d.get? BranchCondition.exprField = some (.text t) ∧
        c.Keeps t) ∧
      (∃ vs, (made.run edits).usedVariables = .ok vs) ∧
      (∀ s, (made.run edits).revalidate = .ok s ↔ (made.run edits).Complete ∧ s = made.run edits) ∧
      made.revalidate = .ok made := by
  have origin : MadeFrom (submitted data edits) (made.run edits) :=
    (madeFrom_of_ofValue accepted).run edits
  refine ⟨fun c member => ?_, ?_, fun s => revalidate_eq_ok origin.sound, ?_⟩
  · obtain ⟨d, listed, known⟩ := origin c member
    obtain ⟨fields, rfl, fitting⟩ := BranchCondition.ofValue_eq_ok.1 known
    obtain ⟨t, given, keeps⟩ := fitting.keeps
    exact ⟨_, listed, t, known, given, keeps⟩
  · obtain ⟨trees, compiled⟩ := mapM_succeeds fun c member => (origin.sound c member).compiles
    exact ⟨_, bind_eq_ok.2 ⟨trees, compiled, rfl⟩⟩
  · obtain ⟨fields, _, fitting⟩ := ofValue_eq_ok.1 accepted
    exact (revalidate_eq_ok (madeFrom_of_ofValue accepted).sound).2 ⟨fitting.complete, rfl⟩

/-- A condition between blanks, one of them no ASCII space. -/
def paddedCondition : Value :=
  .record [(BranchCondition.exprField, "\u2003__v0 > 1 "), (BranchCondition.targetField, "a")]

def laterCondition : Value :=
  .record [(BranchCondition.exprField, "!__v1\n"), (BranchCondition.targetField, "b")]

/-- Another condition comes and goes, the first one is assigned to in vain, and the node is lost. -/
def sampleEdits : List Edit :=
  [.append laterCondition, .assignInside 0 BranchCondition.exprField, .remove (-1), .setNode .null]

/-- What is stored still passes after the edits, and the spec as a whole no longer does. -/
theorem stored_condition_passes : ∃ made,
    ofValue (.record [(nodeField, "n"), (conditionsField, .list [paddedCondition])]) = .ok made ∧
      made.revalidate = .ok made ∧
      (∃ c ∈ (made.run sampleEdits).conditions, c.expr = ("__v0 > 1" : String).toList ∧
        Gate.validate Config.default (.text c.expr) = .ok .valid) ∧
      ∀ s, (made.run sampleEdits).revalidate ≠ .ok s := by
  have first : BranchCondition.ofValue paddedCondition =
      .ok ⟨("__v0 > 1" : String).toList, ['a'], none⟩ := eq_ok_of_toOption (by decide +kernel)
  have second : BranchCondition.ofValue laterCondition =
      .ok ⟨("!__v1" : String).toList, ['b'], none⟩ := eq_ok_of_toOption (by decide +kernel)
  have accepted : ofValue (.record [(nodeField, "n"), (conditionsField, .list [paddedCondition])]) =
      .ok ⟨.text ['n'], [⟨("__v0 > 1" : String).toList, ['a'], none⟩], .null⟩ :=
    ofValue_eq_ok.2 ⟨_, rfl, ⟨⟨['n'], rfl, rfl, rfl⟩,
      conditionsOf_eq_ok.2 (.inr ⟨_, rfl, .cons first .nil⟩), by simp, ⟨none, rfl, rfl, rfl⟩, rfl⟩⟩
  obtain ⟨stored, _, complete, unchanged⟩ := stored_conditions_pass accepted sampleEdits
  have left : (BranchSpec.run ⟨.text ['n'], [⟨("__v0 > 1" : String).toList, ['a'], none⟩], .null⟩
      sampleEdits) = ⟨.null, [⟨("__v0 > 1" : String).toList, ['a'], none⟩], .null⟩ := by
    simp only [run, sampleEdits, List.foldl, settle, Edit.change, perform, second]
    rfl
  refine ⟨_, accepted, unchanged, ⟨⟨("__v0 > 1" : String).toList, ['a'], none⟩, ?_, rfl, ?_⟩, ?_⟩
  · rw [left]
    exact List.mem_singleton_self _
  · obtain ⟨_, _, _, _, _, keeps⟩ := stored _ (by rw [left]; exact List.mem_singleton_self _)
    exact keeps.valid
  · intro s again
    obtain ⟨⟨_, isText, _⟩, _⟩ := ((complete s).1 again).1
    rw [left] at isText
    cases isText

end BranchGate.BranchSpec
