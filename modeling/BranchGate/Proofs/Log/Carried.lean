import BranchGate.Proofs.Fields
import BranchGate.Proofs.Log.Sinks

/-! The fields of a call on its record. A field with the name of an attribute is renamed and so comes
to the record; but one called `message` keeps its name, and the call fails; and of two fields that
come to have one name only the first is kept. -/
namespace BranchGate.Log

/-- The names that a call does not take for fields: its options, and the arguments of its methods. -/
def ownNames : List Text := callOptions ++ (["self", "msg", "level"] : List Text)

def fieldMark : Text := "field_"

section Names

variable {name other : Text}

theorem not_marked : ∀ name ∈ formattedAttributes ++ standardAttributes, ¬ fieldMark <+: name := by
  decide

theorem reserved_standard : ∀ name ∈ formattedAttributes ++ recordAttributes,
    name = "message" ∨ name ∈ standardAttributes := by decide

theorem fieldName_standard (known : name ∈ standardAttributes) :
    fieldName name = fieldMark ++ name := if_pos (List.contains_iff_mem.2 known)

theorem fieldName_other (free : name ∉ standardAttributes) : fieldName name = name :=
  if_neg (mt List.contains_iff_mem.1 free)

theorem isReserved_iff : isReserved name = true ↔ name ∈ formattedAttributes ++ recordAttributes := by
  rw [isReserved, Bool.or_eq_true, List.contains_iff_mem, List.contains_iff_mem, List.mem_append]

/-- Renaming clears every name that a record has taken but one. -/
theorem isReserved_fieldName : isReserved (fieldName name) = true ↔ name = "message" := by
  rw [isReserved_iff]
  constructor
  · intro taken
    by_cases known : name ∈ standardAttributes
    · -- No name that a record has taken is marked, so a marked one is free.
      rw [fieldName_standard known] at taken
      have marked : fieldMark <+: fieldMark ++ name := List.prefix_append _ _
      rcases reserved_standard _ taken with same | inside
      · rw [same] at marked
        exact absurd marked (by decide)
      · exact absurd marked (not_marked _ (List.mem_append_right _ inside))
    · rw [fieldName_other known] at taken
      exact (reserved_standard name taken).resolve_right known
  · rintro rfl
    decide

theorem standard_not_marked (known : name ∈ standardAttributes) : name ≠ fieldMark ++ other := by
  rintro rfl
  exact not_marked _ (List.mem_append_right _ known) (List.prefix_append _ _)

/-- Two names come to be one where one of them is an attribute and the other is what it is renamed
to. -/
theorem fieldName_eq_iff : fieldName name = fieldName other ↔ name = other ∨
    (name ∈ standardAttributes ∧ other = fieldMark ++ name) ∨
      (other ∈ standardAttributes ∧ name = fieldMark ++ other) := by
  by_cases known : name ∈ standardAttributes
  · by_cases known' : other ∈ standardAttributes
    · simp [fieldName_standard, known, known', standard_not_marked known,
        standard_not_marked known']
    · have apart : name ≠ other := fun same => known' (same ▸ known)
      simp [fieldName_standard, fieldName_other, known, known', apart, eq_comm]
  · by_cases known' : other ∈ standardAttributes
    · have apart : name ≠ other := fun same => known (same ▸ known')
      simp [fieldName_standard, fieldName_other, known, known', apart]
    · simp [fieldName_other, known, known']

end Names

section Call

variable {call : Call}

theorem methods_own : ∀ method ∈ call.methods, method.2 ⊆ ownNames := by
  have direct : (["self", "level", "msg"] : List Text) ⊆ ownNames := by decide
  have named : (["self", "msg"] : List Text) ⊆ ownNames := by decide
  unfold Call.methods
  cases call.method with
  | none => exact List.forall_mem_singleton.2 direct
  | some method => exact List.forall_mem_cons.2 ⟨named, List.forall_mem_singleton.2 direct⟩

theorem repeated?_eq_none (free : ∀ name ∈ call.fields.names, name ∉ ownNames) :
    call.repeated? = none := by
  refine List.findSome?_eq_none_iff.2 fun method member => Option.map_eq_none_iff.2 ?_
  refine List.find?_eq_none.2 fun name inside taken => free name inside ?_
  exact methods_own method member (List.contains_iff_mem.1 taken)

def renamed (fields : Fields Value) : Fields Value := fields.map fun f => (fieldName f.1, f.2)

theorem extras_renamed (free : ∀ name ∈ call.fields.names, name ∉ ownNames)
    (bare : call.extra = []) : call.extras = Fields.putAllNew [] (renamed call.fields) := by
  have given : call.fields.filter (fun f => !callOptions.contains f.1) = call.fields := by
    refine List.filter_eq_self.2 fun f member => ?_
    have own := free f.1 (List.mem_map_of_mem member)
    simpa using fun option => own (List.mem_append_left _ option)
  rw [Call.extras, given, bare]
  rfl

theorem mem_names_renamed {fields : Fields Value} {name : Text} :
    name ∈ (renamed fields).names ↔ ∃ given ∈ fields.names, fieldName given = name := by
  simp [renamed, Fields.names]

/-- A level with a written form does not stand in the way of a record. -/
theorem told_of_short (short : call.level.natAbs < powerOfTen digitLimit) :
    Text.ofInt? call.level ≠ none := by
  rw [← Option.isSome_iff_ne_none]
  exact Text.isSome_ofInt?.2 short

/-- Whether the record of a call can be made, and its extras then. -/
theorem record_renamed (time : Time) (free : ∀ name ∈ call.fields.names, name ∉ ownNames)
    (bare : call.extra = []) (short : call.level.natAbs < powerOfTen digitLimit) :
    ("message".toList ∈ call.fields.names →
        call.record time = .error (.reservedField "message")) ∧
      ("message".toList ∉ call.fields.names →
        ∃ r, call.record time = .ok r ∧ r.extras = Fields.putAllNew [] (renamed call.fields)) := by
  have names {name : Text} : name ∈ call.extras.names ↔
      ∃ given ∈ call.fields.names, fieldName given = name := by
    rw [extras_renamed free bare, Fields.mem_names_putAllNew, mem_names_renamed]
    exact or_iff_right List.not_mem_nil
  rw [Call.record, if_neg (told_of_short short)]
  cases found : call.extras.names.find? isReserved with
  | some name =>
    obtain ⟨given, member, same⟩ := names.1 (List.mem_of_find?_eq_some found)
    have taken : isReserved (fieldName given) = true := same ▸ List.find?_some found
    obtain rfl := isReserved_fieldName.1 taken
    refine ⟨fun _ => congrArg (Except.error ∘ Unrecorded.reservedField) ?_,
      fun clear => absurd member clear⟩
    rw [← same]
    decide
  | none =>
    have clear := List.find?_eq_none.1 found
    refine ⟨fun member => ?_, fun _ => ⟨_, rfl, extras_renamed free bare⟩⟩
    exact absurd (isReserved_fieldName.2 rfl) (clear _ (names.2 ⟨_, member, rfl⟩))

/-- Of the fields that come to have one name the first is on the record. -/
theorem get?_renamed {before after : Fields Value} {f : Text × Value}
    (first : ∀ g ∈ before, fieldName g.1 ≠ fieldName f.1) :
    (Fields.putAllNew [] (renamed (before ++ f :: after))).get? (fieldName f.1) = some f.2 := by
  have missing : Fields.get? (renamed before) (fieldName f.1) = none := by
    rw [Fields.get?_eq_none_iff, ← Bool.not_eq_true, Fields.has_iff_mem, mem_names_renamed]
    rintro ⟨_, member, same⟩
    obtain ⟨g, inside, rfl⟩ := List.mem_map.1 member
    exact first g inside same
  rw [Fields.get?_putAllNew, renamed, List.map_append, Fields.get?_append, ← renamed, missing,
    List.map_cons, Fields.get?_cons, if_pos rfl]
  rfl

theorem get?_filtered {s : State} {r : Record} {name : Text} {value : Value}
    (carried : r.extras.get? name = some value) :
    (s.filtered call r).extras.get? name = some value := by
  unfold State.filtered
  split
  · rw [Record.withContext, Fields.get?_putAllNew, carried]
    rfl
  · exact carried

variable {s : State} {cause : Unrecorded}

theorem log_unrecorded (admitted : s.admits call.level = true) (unrepeated : call.repeated? = none)
    (refused : call.record s.now = .error cause) : s.log call = failed s (.unrecorded cause) := by
  simp [State.log, unrepeated, admitted, refused]

end Call

/-- What becomes of the fields of an admitted call. The call fails if a field is called `message`, and
else only if its level has too many digits. If it does not fail, the record has every field under its
own name, or under its marked name if its own is that of an attribute; but a name marked by the caller
and the attribute's name come to be one, and then the first of the two fields counts. -/
theorem fields_carried (s : State) (call : Call) (admitted : s.admits call.level = true)
    (bare : call.extra = []) (distinct : call.fields.names.Nodup)
    (free : ∀ name ∈ call.fields.names, name ∉ ownNames) :
    (powerOfTen digitLimit ≤ call.level.natAbs → s.log call = failed s (.unrecorded .longLevel)) ∧
    (call.level.natAbs < powerOfTen digitLimit → "message".toList ∈ call.fields.names →
      s.log call = failed s (.unrecorded (.reservedField "message"))) ∧
    (call.level.natAbs < powerOfTen digitLimit → "message".toList ∉ call.fields.names →
      ∃ r, call.record s.now = .ok r ∧
        s.log call = ⟨s, [s.filtered call r], s.emit (s.filtered call r), none⟩ ∧
        ∀ before f after, call.fields = before ++ f :: after →
          (∀ g ∈ before, ¬ (f.1 ∈ standardAttributes ∧ g.1 = fieldMark ++ f.1) ∧
            ¬ (g.1 ∈ standardAttributes ∧ f.1 = fieldMark ++ g.1)) →
          (s.filtered call r).extras.get?
            (if f.1 ∈ standardAttributes then fieldMark ++ f.1 else f.1) = some f.2) := by
  have unrepeated := repeated?_eq_none free
  refine ⟨fun long => ?_, fun short member => ?_, fun short clear => ?_⟩
  · refine log_unrecorded admitted unrepeated (if_pos ?_)
    rw [← Option.not_isSome_iff_eq_none, Text.isSome_ofInt?]
    exact Nat.not_lt.2 long
  · exact log_unrecorded admitted unrepeated ((record_renamed s.now free bare short).1 member)
  obtain ⟨r, record, extras⟩ := (record_renamed s.now free bare short).2 clear
  refine ⟨r, record, log_made admitted unrepeated record, fun before f after split first => ?_⟩
  have own : (if f.1 ∈ standardAttributes then fieldMark ++ f.1 else f.1) = fieldName f.1 := by
    split
    next known => exact (fieldName_standard known).symm
    next free => exact (fieldName_other free).symm
  rw [own]
  refine get?_filtered ?_
  rw [extras, split]
  refine get?_renamed fun g inside same => ?_
  rcases fieldName_eq_iff.1 same with same | ⟨known, marked⟩ | ⟨known, marked⟩
  · rw [split, Fields.names, List.map_append, List.map_cons, List.nodup_append] at distinct
    exact distinct.2.2 _ (List.mem_map_of_mem inside) _ List.mem_cons_self same
  · exact (first g inside).2 ⟨known, marked⟩
  · exact (first g inside).1 ⟨known, marked⟩

/-- A field with the name of an attribute, before one that has its marked name. -/
theorem fields_carried_marked :
    let s : State := ⟨10, [], [], [], .ofInt 0⟩
    let call : Call := ⟨"adapter", some "info", 20, "hello", [("event", .text "adapter.event"),
      ("module", .text "clash"), ("field_module", .text "later")], [], none⟩
    s.admits call.level = true ∧ call.fields.names.Nodup ∧
      (∀ name ∈ call.fields.names, name ∉ ownNames) ∧ (s.log call).fault = none ∧
      ∃ r, call.record s.now = .ok r ∧
        (s.filtered call r).extras.get? "event" = some (.text "adapter.event") ∧
        (s.filtered call r).extras.get? "field_module" = some (.text "clash") := by
  intro s call
  have distinct : call.fields.names.Nodup := by decide
  have free : ∀ name ∈ call.fields.names, name ∉ ownNames := by decide
  obtain ⟨r, made, logged, kept⟩ :=
    (fields_carried s call rfl rfl distinct free).2.2 (by decide +kernel) (by decide)
  refine ⟨rfl, distinct, free, by rw [logged], r, made, ?_, ?_⟩
  · exact kept [] _ _ rfl (List.forall_mem_nil _)
  · refine kept [("event", .text "adapter.event")] ("module", .text "clash") _ rfl ?_
    exact List.forall_mem_singleton.2 (by decide)

/-- An admitted call that fails for the name of a field, and one that does not fail and drops a
field. -/
theorem fields_not_all_carried :
    let s : State := .initial (.ofInt 0)
    let refused : Call := ⟨[], some "error", 40, "m", [("message", .text "a")], [], none⟩
    let dropping : Call :=
      ⟨[], some "error", 40, "m", [("name", .text "a"), ("field_name", .text "b")], [], none⟩
    (∀ call ∈ [refused, dropping], s.admits call.level = true ∧ call.extra = [] ∧
      call.fields.names.Nodup ∧ ∀ name ∈ call.fields.names, name ∉ ownNames) ∧
    (s.log refused).fault = some (.unrecorded (.reservedField "message")) ∧
    (s.log dropping).fault = none ∧
      (dropping.record s.now).map Record.extras = .ok [("field_name", .text "a")] := by
  intro s refused dropping
  refine ⟨List.forall_mem_cons.2 ⟨?_, List.forall_mem_singleton.2 ?_⟩,
    by decide +kernel, by decide +kernel, ?_⟩
  · exact ⟨rfl, rfl, by decide, by decide⟩
  · exact ⟨rfl, rfl, by decide, by decide⟩
  · rw [Call.record, if_neg (by decide)]
    rfl

end BranchGate.Log
