import BranchGate.Proofs.Outcome
import BranchGate.Value.Json
import BranchGate.Value.Plain

/-! The integers in a value. A value has a written form, in JSON or plainly, exactly if none of them
has more digits than a number may be written with. -/
namespace BranchGate.Value

mutual

/-- The integers in a value, in the order of its parts. -/
def integers : Value → List Int
  | .integer n => [n]
  | .list items => itemIntegers items
  | .record fields => fieldIntegers fields
  | _ => []

def itemIntegers : List Value → List Int
  | [] => []
  | v :: rest => integers v ++ itemIntegers rest

def fieldIntegers : List (Text × Value) → List Int
  | [] => []
  | (_, v) :: rest => integers v ++ fieldIntegers rest

end

/-- A value in which no integer has too many digits. -/
def Short (v : Value) : Prop := ∀ n ∈ v.integers, n.natAbs < powerOfTen digitLimit

instance (v : Value) : Decidable v.Short :=
  inferInstanceAs (Decidable (∀ n ∈ v.integers, n.natAbs < powerOfTen digitLimit))

/-- Induction over the parts of a value. -/
@[elab_as_elim]
theorem byParts {P : Value → Prop} (null : P .null) (bool : ∀ b, P (.bool b))
    (integer : ∀ n, P (.integer n)) (decimal : ∀ x, P (.decimal x)) (text : ∀ t, P (.text t))
    (list : ∀ items, (∀ v ∈ items, P v) → P (.list items))
    (record : ∀ fields : Fields Value, (∀ f ∈ fields, P f.2) → P (.record fields)) (v : Value) :
    P v :=
  @Value.rec P (fun items => ∀ v ∈ items, P v) (fun fields => ∀ f ∈ fields, P f.2)
    (fun f => P f.2) null bool integer decimal text list record (List.forall_mem_nil _)
    (fun _ _ first others => List.forall_mem_cons.2 ⟨first, others⟩) (List.forall_mem_nil _)
    (fun _ _ first others => List.forall_mem_cons.2 ⟨first, others⟩) (fun _ _ part => part) v

section Short

variable {items : List Value} {fields : Fields Value}

theorem short_of_text (t : Text) : Short (.text t) := List.forall_mem_nil _

theorem short_integer {n : Int} : Short (.integer n) ↔ n.natAbs < powerOfTen digitLimit :=
  List.forall_mem_singleton

theorem short_list : Short (.list items) ↔ ∀ v ∈ items, Short v := by
  induction items with
  | nil => exact iff_of_true (List.forall_mem_nil _) (List.forall_mem_nil _)
  | cons v others ih =>
    have split : Short (.list (v :: others)) ↔ Short v ∧ Short (.list others) :=
      List.forall_mem_append
    rw [split, ih, List.forall_mem_cons]

theorem short_record : Short (.record fields) ↔ ∀ f ∈ fields, Short f.2 := by
  induction fields with
  | nil => exact iff_of_true (List.forall_mem_nil _) (List.forall_mem_nil _)
  | cons f others ih =>
    have split : Short (.record (f :: others)) ↔ Short f.2 ∧ Short (.record others) :=
      List.forall_mem_append
    rw [split, ih, List.forall_mem_cons]

end Short

section Written

variable {items : List Value} {fields : Fields Value}

theorem jsonItems_eq : jsonItems items = items.mapM json := by
  induction items with
  | nil => rfl
  | cons v others ih => rw [jsonItems, ih, List.mapM_cons]; rfl

theorem jsonFields_eq : jsonFields fields =
    fields.mapM fun f => (json f.2).map fun t => jsonText f.1 ++ ':' :: t := by
  induction fields with
  | nil => rfl
  | cons f others ih =>
    rw [jsonFields, ih, List.mapM_cons]
    cases json f.2 <;> rfl

theorem json_list : json (.list items) =
    (items.mapM json).map fun parts => '[' :: (Text.join "," parts ++ [']']) := by
  rw [json, jsonItems_eq]
  cases items.mapM json <;> rfl

theorem json_record : json (.record fields) =
    (fields.mapM fun f => (json f.2).map fun t => jsonText f.1 ++ ':' :: t).map fun parts =>
      '\x7b' :: (Text.join "," parts ++ ['\x7d']) := by
  rw [json, jsonFields_eq]
  cases fields.mapM fun f => (json f.2).map fun t => jsonText f.1 ++ ':' :: t <;> rfl

theorem isSome_json {v : Value} : (json v).isSome = true ↔ v.Short := by
  induction v using byParts with
  | null | decimal | text => exact iff_of_true rfl (List.forall_mem_nil _)
  | bool b => cases b <;> exact iff_of_true rfl (List.forall_mem_nil _)
  | integer n => exact Text.isSome_ofInt?.trans short_integer.symm
  | list items each =>
    rw [json_list, Option.isSome_map, isSome_mapM, short_list]
    exact forall₂_congr each
  | record fields each =>
    rw [json_record, Option.isSome_map, isSome_mapM, short_record]
    simp only [Option.isSome_map]
    exact forall₂_congr each

theorem nestedItems_eq : nestedItems items = items.mapM nested := by
  induction items with
  | nil => rfl
  | cons v others ih => rw [nestedItems, ih, List.mapM_cons]; rfl

theorem nestedFields_eq : nestedFields fields =
    fields.mapM fun f => (nested f.2).map fun t => Text.quoted f.1 ++ ": " ++ t := by
  induction fields with
  | nil => rfl
  | cons f others ih =>
    rw [nestedFields, ih, List.mapM_cons]
    cases nested f.2 <;> rfl

theorem isSome_nested {v : Value} : (nested v).isSome = true ↔ v.Short := by
  induction v using byParts with
  | null | decimal | text => exact iff_of_true rfl (List.forall_mem_nil _)
  | bool b => cases b <;> exact iff_of_true rfl (List.forall_mem_nil _)
  | integer n => exact Text.isSome_ofInt?.trans short_integer.symm
  | list items each =>
    have written : (nested (.list items)).isSome = (items.mapM nested).isSome := by
      rw [nested, nestedItems_eq]
      cases items.mapM nested <;> rfl
    rw [written, isSome_mapM, short_list]
    exact forall₂_congr each
  | record fields each =>
    have written : (nested (.record fields)).isSome = (nestedFields fields).isSome := by
      rw [nested]
      cases nestedFields fields <;> rfl
    rw [written, nestedFields_eq, isSome_mapM, short_record]
    simp only [Option.isSome_map]
    exact forall₂_congr each

theorem isSome_plain {v : Value} : v.plain.isSome = true ↔ v.Short := by
  cases v with
  | text t => exact iff_of_true rfl (short_of_text t)
  | _ => exact isSome_nested

end Written

end BranchGate.Value
