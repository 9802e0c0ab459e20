import BranchGate.Log.Format
import BranchGate.Proofs.Fields
import BranchGate.Proofs.Value.Json

/-! The object of a record in the JSON form: what stands in it under each name. The context counts
before the header and the header before the extras; the problem counts before all of them. -/
namespace BranchGate.Log

open Value

/-- The names that every line has. -/
def headNames : List Text := ["ts", "level", "logger"]

/-- The object before the problem is put in. -/
def baseObject (context : Fields Value) (time : Text) (r : Record) : Fields Value :=
  ((header time r).putAll context).putAllNew
    (r.extras.filter fun f => !standardAttributes.contains f.1)

section Object

variable {stack : Bool} {context : Fields Value} {time : Text} {r : Record} {name : Text}
  {f : Text × Value}

theorem jsonObject_eq : jsonObject stack context time r = match r.problem with
    | none => baseObject context time r
    | some p => (baseObject context time r).put "error" (problemField stack p) := rfl

theorem names_header : (header time r).names =
    headNames ++ if r.message = [] then [] else ["message".toList] := by
  unfold header
  cases r.message <;> rfl

theorem nodup_header : (header time r).names.Nodup := by
  rw [names_header]
  split <;> decide

theorem mem_names_header : name ∈ (header time r).names ↔
    name ∈ headNames ∨ (name = "message" ∧ r.message ≠ []) := by
  rw [names_header, List.mem_append]
  split
  next empty => simp [empty]
  next filled => simp [filled]

theorem get?_header_eq_none : (header time r).get? name = none ↔
    ¬(name ∈ headNames ∨ (name = "message" ∧ r.message ≠ [])) := by
  rw [Fields.get?_eq_none_iff, ← Bool.not_eq_true, Fields.has_iff_mem, mem_names_header]

theorem get?_given : Fields.get? (r.extras.filter fun f => !standardAttributes.contains f.1) name =
    if name ∈ standardAttributes then none else r.extras.get? name := by
  split
  next taken =>
    rw [Fields.get?_eq_none_iff, ← Bool.not_eq_true, Fields.has_iff_mem]
    simp [Fields.names, taken]
  next free =>
    exact Fields.get?_filter (p := fun name => !standardAttributes.contains name) (by simpa using free)

theorem get?_baseObject (distinct : context.names.Nodup) :
    (baseObject context time r).get? name =
      ((context.get? name).or ((header time r).get? name)).or
        (if name ∈ standardAttributes then none else r.extras.get? name) := by
  rw [baseObject, Fields.get?_putAllNew, Fields.get?_putAll, Fields.get?_reverse distinct, get?_given]

theorem get?_jsonObject (other : ¬(name = "error" ∧ r.problem ≠ none)) :
    (jsonObject stack context time r).get? name = (baseObject context time r).get? name := by
  rw [jsonObject_eq]
  cases told : r.problem with
  | none => rfl
  | some p =>
    refine (Fields.get?_put _ _ _ _).trans (if_neg fun same => other ⟨same.symm, ?_⟩)
    rw [told]
    exact nofun

theorem get?_error {p : Problem} (told : r.problem = some p) :
    (jsonObject stack context time r).get? "error" = some (problemField stack p) := by
  rw [jsonObject_eq, told]
  exact (Fields.get?_put _ _ _ _).trans (if_pos rfl)

theorem nodup_jsonObject : (jsonObject stack context time r).names.Nodup := by
  have base : (baseObject context time r).names.Nodup :=
    Fields.nodup_names_putAllNew (Fields.nodup_names_putAll nodup_header _) _
  rw [jsonObject_eq]
  cases r.problem with
  | none => exact base
  | some p => exact Fields.nodup_names_put base _

/-- The header gives way to the context, and to nothing else. -/
theorem get?_head (distinct : context.names.Nodup) (member : f ∈ header time r) :
    (jsonObject stack context time r).get? f.1 = some ((context.get? f.1).getD f.2) := by
  have other : ¬(f.1 = "error" ∧ r.problem ≠ none) := by
    rintro ⟨same, -⟩
    have own : f.1 ∈ (header time r).names := List.mem_map_of_mem member
    rw [mem_names_header, same] at own
    rcases own with head | ⟨message, -⟩
    · exact absurd head (by decide)
    · exact absurd message (by decide)
  rw [get?_jsonObject other, get?_baseObject distinct, Fields.get?_of_mem nodup_header member]
  cases context.get? f.1 <;> rfl

section Values

theorem exact_problemField (stack : Bool) (p : Problem) : (problemField stack p).Exact := by
  unfold problemField
  refine .record (List.forall_mem_append.2 ⟨List.forall_mem_cons.2 ⟨.text _,
    List.forall_mem_singleton.2 ?_⟩, ?_⟩) ?_
  · cases p with
    | absent => exact .null
    | raised => exact .text _
  · split
    · exact List.forall_mem_singleton.2 (.text _)
    · exact nofun
  · cases stack with
    | true => exact (by decide : (["type", "message", "stack"] : List Text).Nodup)
    | false => exact (by decide : (["type", "message"] : List Text).Nodup)

theorem text_of_header (member : f ∈ header time r) : ∃ t, f.2 = .text t := by
  have head : ∀ f ∈ header time r, ∃ t, f.2 = .text t := by
    refine List.forall_mem_append.2 ⟨?_, ?_⟩
    · simp
    · split
      · exact nofun
      · exact List.forall_mem_singleton.2 ⟨_, rfl⟩
  exact head f member

theorem exact_jsonObject (bound : ∀ f ∈ context, f.2.Exact) (given : ∀ f ∈ r.extras, f.2.Exact) :
    (Value.record (jsonObject stack context time r)).Exact := by
  have head : ∀ f ∈ header time r, f.2.Exact := by
    intro f member
    obtain ⟨t, same⟩ := text_of_header member
    rw [same]
    exact .text t
  have base : ∀ f ∈ baseObject context time r, f.2.Exact :=
    Fields.forall_putAllNew (Fields.forall_putAll head bound)
      fun f member => given f (List.mem_filter.1 member).1
  refine .record ?_ nodup_jsonObject
  rw [jsonObject_eq]
  cases r.problem with
  | none => exact base
  | some p =>
    exact Fields.forall_put (f := ("error", problemField stack p)) base (exact_problemField stack p)

end Values
end Object
end BranchGate.Log
