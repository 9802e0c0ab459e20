import BranchGate.Log.State
import BranchGate.Proofs.Fields
import BranchGate.Proofs.Value.Integers
import Mathlib.Data.List.Basic

/-! The context on a record, and the logger in a line. What the context gives a record every form
of a line shows anyway, so a line is the same whether or not the record has it; and of the logger a
line shows the name and nothing else. -/
namespace BranchGate.Log

section Context

variable {context : Fields Value} {r : Record} {time : Text} {stack : Bool}

theorem jsonObject_withContext :
    jsonObject stack context time (r.withContext context) = jsonObject stack context time r := by
  unfold jsonObject
  simp only [Record.withContext]
  rw [Fields.filter_putAllNew (p := fun name => !standardAttributes.contains name),
    Fields.putAllNew_putAllNew]
  · rfl
  · intro f given
    -- the object has every name of the context by now
    rw [Fields.has_putAll, Bool.or_eq_true]
    have mem : f ∈ context := (List.mem_filter.1 (List.mem_filter.1 given).1).1
    exact .inr (List.any_eq_true.2 ⟨f, mem, beq_self_eq_true _⟩)

theorem shownFields_withContext :
    shownFields context (r.withContext context) = shownFields context r := by
  have free : ∀ name ∈ humanFields, (!recordAttributes.contains name) = true := by decide +kernel
  unfold shownFields
  refine List.filterMap_congr fun name shown => ?_
  have same : (context.putAll (r.withContext context).extras).get? name =
      (context.putAll r.extras).get? name := by
    rw [Fields.get?_putAll, Fields.get?_putAll, Record.withContext, Fields.get?_reverse_putAllNew,
      Fields.get?_filter (p := fun name => !recordAttributes.contains name) (free name shown),
      Option.or_assoc, Option.or_self]
  simp only [same]

theorem write_withContext (format : Format) (context : Fields Value) (r : Record) :
    format.write context (r.withContext context) = format.write context r := by
  cases format with
  | json stack =>
    unfold Format.write formatJson
    simp only [jsonObject_withContext]
    rfl
  | human =>
    unfold Format.write formatHuman
    simp only [shownFields_withContext]
    rfl
  | plain => rfl

end Context

/-- A piece of a printed text: fixed, or the name of the logger, as it is or as JSON. -/
inductive Piece
  | fixed (t : Text)
  | plain
  | json
  deriving DecidableEq, Repr

namespace Piece

def isOpen : Piece → Bool
  | .fixed _ => false
  | .plain | .json => true

def text (name : Text) : Piece → Text
  | .fixed t => t
  | .plain => name
  | .json => Value.jsonText name

end Piece

def fill (name : Text) (pieces : List Piece) : Text := pieces.flatMap (Piece.text name)

/-- A text that shows a name at most `most` times and says nothing else of it. -/
def Shows (most : Nat) (told : Text → Text) : Prop :=
  ∃ pieces, pieces.countP Piece.isOpen ≤ most ∧ told = (fill · pieces)

/-- A text for each name that shows it so, or for no name one. -/
def MayShow (most : Nat) (told : Text → Option Text) : Prop :=
  told = (fun _ => none) ∨ ∃ text, Shows most text ∧ told = fun name => some (text name)

section Shows

variable {m n : Nat} {told told' : Text → Text}

theorem shows_fixed (t : Text) : Shows 0 fun _ => t :=
  ⟨[.fixed t], Nat.le_refl 0, funext fun _ => (List.append_nil t).symm⟩

theorem shows_json : Shows 1 Value.jsonText :=
  ⟨[.json], Nat.le_refl 1, funext fun name => (List.append_nil (Value.jsonText name)).symm⟩

theorem Shows.mono (few : Shows m told) (more : m ≤ n) : Shows n told := by
  obtain ⟨pieces, count, same⟩ := few
  exact ⟨pieces, Nat.le_trans count more, same⟩

theorem Shows.append (first : Shows m told) (second : Shows n told') :
    Shows (m + n) fun name => told name ++ told' name := by
  obtain ⟨pieces, count, rfl⟩ := first
  obtain ⟨pieces', count', rfl⟩ := second
  refine ⟨pieces ++ pieces', ?_, funext fun name => List.flatMap_append.symm⟩
  rw [List.countP_append]
  exact Nat.add_le_add count count'

end Shows

/-- An object in which the name of the logger stands where no value does. -/
def named (name : Text) (fields : Fields (Option Value)) : Fields Value :=
  fields.map fun f => (f.1, f.2.getD (.text name))

/-- An object whose names are fixed, and all its values but one at most, which is the name of the
logger. -/
def NamedOnce (object : Text → Fields Value) : Prop :=
  ∃ fields : Fields (Option Value), fields.countP (·.2.isNone) ≤ 1 ∧ object = (named · fields)

section NamedOnce

variable {object : Text → Fields Value} {f : Text × Value}

theorem named_put (name : Text) (fields : Fields (Option Value)) :
    named name (fields.put f.1 (some f.2)) = (named name fields).put f.1 f.2 := by
  induction fields with
  | nil => rfl
  | cons g rest ih =>
    simp only [named] at ih
    by_cases same : g.1 = f.1 <;> simp [named, Fields.put, same, ih]

theorem count_put (fields : Fields (Option Value)) :
    (fields.put f.1 (some f.2)).countP (·.2.isNone) ≤ fields.countP (·.2.isNone) := by
  induction fields with
  | nil => exact Nat.le_refl 0
  | cons g rest ih =>
    rw [Fields.put]
    split
    · rw [List.countP_cons, List.countP_cons]
      simp
    · rw [List.countP_cons, List.countP_cons]
      exact Nat.add_le_add_right ih _

theorem NamedOnce.put (once : NamedOnce object) :
    NamedOnce fun name => (object name).put f.1 f.2 := by
  obtain ⟨fields, count, rfl⟩ := once
  exact ⟨fields.put f.1 (some f.2), Nat.le_trans (count_put fields) count,
    funext fun name => (named_put name fields).symm⟩

theorem NamedOnce.putNew (once : NamedOnce object) :
    NamedOnce fun name => (object name).putNew f.1 f.2 := by
  obtain ⟨fields, count, rfl⟩ := once
  have known (name : Text) : (named name fields).has f.1 = fields.has f.1 := List.any_map
  simp only [Fields.putNew, known]
  split
  · exact ⟨fields, count, rfl⟩
  · refine ⟨fields ++ [(f.1, some f.2)], ?_, funext fun name => ?_⟩
    · rw [List.countP_append]
      exact count
    · rw [named, named, List.map_append]
      rfl

theorem NamedOnce.putAll (more : Fields Value) (once : NamedOnce object) :
    NamedOnce fun name => (object name).putAll more := by
  induction more generalizing object with
  | nil => exact once
  | cons f rest ih => exact ih once.put

theorem NamedOnce.putAllNew (more : Fields Value) (once : NamedOnce object) :
    NamedOnce fun name => (object name).putAllNew more := by
  induction more generalizing object with
  | nil => exact once
  | cons f rest ih => exact ih once.putNew

theorem json_field (f : Text × Option Value) : MayShow (if f.2.isNone then 1 else 0) fun name =>
    (f.2.getD (.text name)).json.map fun t => Value.jsonText f.1 ++ ':' :: t := by
  obtain ⟨n, _ | v⟩ := f
  · have shown := (shows_fixed (Value.jsonText n ++ [':'])).append shows_json
    simp only [List.append_assoc, List.singleton_append] at shown
    exact .inr ⟨_, shown, rfl⟩
  · simp only [Option.getD_some]
    cases v.json with
    | none => exact .inl rfl
    | some t => exact .inr ⟨_, shows_fixed (Value.jsonText n ++ ':' :: t), rfl⟩

/-- The fields have texts for no name, or for each name one text each. -/
theorem json_fields (fields : Fields (Option Value)) :
    (∀ name, Value.jsonFields (named name fields) = none) ∨
      ∃ texts, List.Forall₂ (fun f text => Shows (if f.2.isNone then 1 else 0) text) fields texts ∧
        ∀ name, Value.jsonFields (named name fields) = some (texts.map (· name)) := by
  simp only [Value.jsonFields_eq]
  induction fields with
  | nil => exact .inr ⟨[], .nil, fun _ => rfl⟩
  | cons f rest ih =>
    simp only [named, List.map_cons, List.mapM_cons]
    rcases json_field f with none | ⟨text, shows, first⟩
    · exact .inl fun name => by rw [congrFun none name]; rfl
    · simp only [fun name => congrFun first name]
      rcases ih with none | ⟨texts, each, others⟩
      · exact .inl fun name => by rw [← named, none]; rfl
      · exact .inr ⟨text :: texts, .cons shows each, fun name => by rw [← named, others]; rfl⟩

theorem shows_join {fields : Fields (Option Value)} {texts : List (Text → Text)}
    (each : List.Forall₂ (fun f text => Shows (if f.2.isNone then 1 else 0) text) fields texts) :
    Shows (fields.countP (·.2.isNone)) fun name => Text.join "," (texts.map (· name)) := by
  induction each with
  | nil => exact shows_fixed []
  | cons first each ih =>
    rw [List.countP_cons, Nat.add_comm]
    cases each with
    | nil => exact first
    | cons => exact (first.append (shows_fixed ",")).append ih

theorem NamedOnce.json (once : NamedOnce object) :
    MayShow 1 fun name => (Value.record (object name)).json := by
  obtain ⟨fields, count, rfl⟩ := once
  simp only [Value.json]
  rcases json_fields fields with none | ⟨texts, each, some⟩
  · exact .inl (funext fun name => by rw [none]; rfl)
  · refine .inr ⟨_, (shows_fixed ['\x7b']).append
      (((shows_join each).mono count).append (shows_fixed ['\x7d'])), funext fun name => ?_⟩
    rw [some]
    rfl

end NamedOnce

section Line

variable {context : Fields Value} {r : Record}

end Line

section Call

variable {s : State} {call : Call}

theorem emit_filtered (s : State) (call : Call) (r : Record) :
    s.emit (s.filtered call r) = s.emit r := by
  unfold State.filtered
  split
  · simp only [State.emit, write_withContext]
    rfl
  · rfl

end Call

end BranchGate.Log
