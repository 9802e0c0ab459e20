import BranchGate.Proofs.Log.Clock
import BranchGate.Proofs.Log.Objects
import BranchGate.Proofs.Log.Sinks
import BranchGate.Proofs.Outcome

/-! What a line shows of a record and of the context, and whether there is a line. A form writes every
record whose time is one of its calendar and in which it shows no integer of too many digits. -/
namespace BranchGate.Log

namespace Format

/-- The value that a line shows under a name, apart from what the record says of itself. The JSON form
lets the context count before the extras, and shows no extra that is an attribute or has a name of
the header; the human form lets the extras count before the context; the plain form shows none. -/
def shown (context : Fields Value) (r : Record) : Format → Text → Option Value
  | .json _, name =>
    if name = "error" ∧ r.problem ≠ none then none
    else (context.get? name).or <|
      if name ∈ standardAttributes ∨ name ∈ headNames ∨ (name = "message" ∧ r.message ≠ []) then none
      else r.extras.get? name
  | .human, name =>
    if name ∈ humanFields then
      ((Fields.get? r.extras.reverse name).or (context.get? name)).filter fun v => !v.isNull
    else none
  | .plain, _ => none

/-- The times that a form can write: the years 1 to 9999, to the microsecond, or those that fit into
32 bits, to the second. -/
def HasDate (t : Time) : Format → Prop
  | .json _ => -62135596800000000 ≤ t.micros ∧ t.micros < 253402300800000000
  | .human | .plain => -67768040609740800 ≤ t.floor ∧ t.floor < 67767976233532800

instance (t : Time) : (format : Format) → Decidable (format.HasDate t)
  | .json _ => inferInstanceAs (Decidable (_ ∧ _))
  | .human | .plain => inferInstanceAs (Decidable (_ ∧ _))

/-- What makes a line of a record possible. -/
structure CanWrite (format : Format) (context : Fields Value) (r : Record) : Prop where
  date : format.HasDate r.time
  integers : ∀ name v, format.shown context r name = some v → v.Short

end Format

section Json

variable {stack : Bool} {context : Fields Value} {time : Text} {r : Record} {name : Text} {v : Value}
  {f : Text × Value}

/-- Under every name but that of the problem stands what is shown, and else what the header says. -/
theorem get?_eq_shown (distinct : context.names.Nodup)
    (other : ¬(name = "error" ∧ r.problem ≠ none)) : (jsonObject stack context time r).get? name =
      ((Format.json stack).shown context r name).or ((header time r).get? name) := by
  rw [get?_jsonObject other, get?_baseObject distinct, Format.shown, if_neg other]
  by_cases own : name ∈ headNames ∨ (name = "message" ∧ r.message ≠ [])
  · obtain ⟨v, found⟩ := Option.ne_none_iff_exists'.1 (mt get?_header_eq_none.1 (not_not.2 own))
    have hidden : name ∈ standardAttributes ∨ name ∈ headNames ∨
        (name = "message" ∧ r.message ≠ []) := .inr own
    rw [found, if_pos hidden]
    cases context.get? name <;> rfl
  · rw [get?_header_eq_none.2 own, Option.or_none, Option.or_none]
    simp only [own, or_false]

theorem get?_of_shown (distinct : context.names.Nodup)
    (told : (Format.json stack).shown context r name = some v) :
    (jsonObject stack context time r).get? name = some v := by
  have other : ¬(name = "error" ∧ r.problem ≠ none) := by
    intro problem
    rw [Format.shown, if_pos problem] at told
    cases told
  rw [get?_eq_shown distinct other, told]
  rfl

/-- Whatever stands in the object is shown, or is the record's own. -/
theorem mem_jsonObject (distinct : context.names.Nodup) (member : f ∈ jsonObject stack context time r) :
    (Format.json stack).shown context r f.1 = some f.2 ∨ f ∈ header time r ∨
      ∃ p, r.problem = some p ∧ f = ("error".toList, problemField stack p) := by
  have found := Fields.get?_of_mem nodup_jsonObject member
  by_cases other : f.1 = "error" ∧ r.problem ≠ none
  · obtain ⟨same, problem⟩ := other
    obtain ⟨p, told⟩ := Option.ne_none_iff_exists'.1 problem
    rw [same, get?_error told] at found
    exact .inr (.inr ⟨p, told, Prod.ext same (Option.some.inj found).symm⟩)
  · rw [get?_eq_shown distinct other] at found
    rcases Option.or_eq_some_iff.1 found with told | ⟨-, own⟩
    · exact .inl told
    · exact .inr (.inl (Fields.mem_of_get? own))

theorem short_problemField (stack : Bool) (p : Problem) : (problemField stack p).Short := by
  unfold problemField
  rw [Value.short_record]
  refine List.forall_mem_append.2 ⟨List.forall_mem_cons.2 ⟨Value.short_of_text _,
    List.forall_mem_singleton.2 ?_⟩, ?_⟩
  · cases p with
    | absent => exact List.forall_mem_nil _
    | raised => exact Value.short_of_text _
  · split
    · exact List.forall_mem_singleton.2 (Value.short_of_text _)
    · exact nofun

theorem short_jsonObject (time : Text) (distinct : context.names.Nodup) :
    (Value.record (jsonObject stack context time r)).Short ↔
      ∀ name v, (Format.json stack).shown context r name = some v → v.Short := by
  rw [Value.short_record]
  constructor
  · exact fun all name v told => all (name, v) (Fields.mem_of_get? (get?_of_shown distinct told))
  · intro all f member
    rcases mem_jsonObject distinct member with told | own | ⟨p, -, rfl⟩
    · exact all f.1 f.2 told
    · obtain ⟨t, same⟩ := text_of_header own
      rw [same]
      exact Value.short_of_text t
    · exact short_problemField stack p

end Json

section Human

variable {context : Fields Value} {r : Record} {name : Text} {f : Text × Value}

theorem shownFields_eq : shownFields context r =
    humanFields.filterMap fun name => (Format.human.shown context r name).map (name, ·) := by
  unfold shownFields
  refine List.filterMap_congr fun name known => ?_
  rw [Fields.get?_putAll, Format.shown, if_pos known]
  cases (Fields.get? r.extras.reverse name).or (context.get? name) with
  | none => rfl
  | some v => cases v <;> rfl

theorem mem_shownFields :
    f ∈ shownFields context r ↔ Format.human.shown context r f.1 = some f.2 := by
  rw [shownFields_eq, List.mem_filterMap]
  constructor
  · rintro ⟨name, -, told⟩
    obtain ⟨v, found, rfl⟩ := Option.map_eq_some_iff.1 told
    exact found
  · intro told
    have known : f.1 ∈ humanFields := by
      by_contra other
      rw [Format.shown, if_neg other] at told
      cases told
    exact ⟨f.1, known, by rw [told]; rfl⟩

theorem isSome_writeField : (writeField f).isSome = true ↔ f.2.Short := by
  rw [← Value.isSome_plain, writeField]
  cases f.2.plain <;> rfl

end Human

variable {context : Fields Value} {r : Record}

theorem isSome_formatHuman : (formatHuman context r).isSome = true ↔
    (plainTime? '.' r.time).isSome = true ∧
      ∀ name v, Format.human.shown context r name = some v → v.Short := by
  have fields : ((shownFields context r).mapM writeField).isSome = true ↔
      ∀ name v, Format.human.shown context r name = some v → v.Short := by
    rw [isSome_mapM]
    simp only [isSome_writeField, mem_shownFields, Prod.forall]
  rw [← fields, formatHuman]
  cases plainTime? '.' r.time with
  | none => simp
  | some time =>
    cases (shownFields context r).mapM writeField with
    | none => simp
    | some parts => cases r.problem <;> simp

theorem isSome_formatPlain :
    (formatPlain r).isSome = true ↔ (plainTime? ',' r.time).isSome = true := by
  rw [formatPlain]
  cases plainTime? ',' r.time with
  | none => simp
  | some time =>
    cases r.problem with
    | none => simp
    | some p => simp only [Option.bind_eq_bind, Option.bind_some]; split <;> simp

/-- A record has a line exactly if its time has a date and no integer shown has too many digits. -/
theorem isSome_write (format : Format) (distinct : context.names.Nodup) :
    (format.write context r).isSome = true ↔ format.CanWrite context r := by
  have split : format.CanWrite context r ↔ format.HasDate r.time ∧
      ∀ name v, format.shown context r name = some v → v.Short :=
    ⟨fun can => ⟨can.date, can.integers⟩, fun can => ⟨can.1, can.2⟩⟩
  rw [split]
  cases format with
  | json stack =>
    rw [Format.HasDate, ← isSome_isoTime?, Format.write, formatJson]
    cases isoTime? r.time with
    | none => simp
    | some time =>
      rw [← short_jsonObject time distinct, ← Value.isSome_json]
      simp
  | human => rw [Format.HasDate, ← isSome_plainTime?, Format.write, isSome_formatHuman]
  | plain =>
    rw [Format.HasDate, ← isSome_plainTime?, Format.write, isSome_formatPlain]
    exact (and_iff_left fun _ _ told => by cases told).symm

section Emit

variable {s : State} {sink : Sink}

theorem emit_writable (attached : s.sinks = [sink]) (enough : sink.level ≤ r.level)
    (distinct : s.context.names.Nodup) (can : sink.format.CanWrite s.context r) :
    ∃ line, sink.format.write s.context r = some line ∧ s.emit r = line ++ ['\n'] := by
  obtain ⟨line, written⟩ := Option.isSome_iff_exists.1 ((isSome_write sink.format distinct).2 can)
  exact ⟨line, written, by rw [emit_admitted attached enough, written]⟩

end Emit

/-- What is shown comes from the context or the extras. -/
theorem mem_of_shown {format : Format} {name : Text} {v : Value}
    (told : format.shown context r name = some v) : (name, v) ∈ context ∨ (name, v) ∈ r.extras := by
  cases format with
  | json stack =>
    rw [Format.shown] at told
    split at told
    · cases told
    · rcases Option.or_eq_some_iff.1 told with bound | ⟨-, given⟩
      · exact .inl (Fields.mem_of_get? bound)
      · split at given
        · cases given
        · exact .inr (Fields.mem_of_get? given)
  | human =>
    rw [Format.shown] at told
    split at told
    · rcases Option.or_eq_some_iff.1 (Option.filter_eq_some_iff.1 told).1 with given | ⟨-, bound⟩
      · exact .inr (List.mem_reverse.1 (Fields.mem_of_get? given))
      · exact .inl (Fields.mem_of_get? bound)
    · cases told
  | plain => cases told

/-- A record with a date is written where no integer at all has too many digits. -/
theorem canWrite_of_short {format : Format} (date : format.HasDate r.time)
    (bound : ∀ f ∈ context, f.2.Short) (given : ∀ f ∈ r.extras, f.2.Short) :
    format.CanWrite context r where
  date := date
  integers name v told := by
    rcases mem_of_shown told with inside | inside
    · exact bound (name, v) inside
    · exact given (name, v) inside

/-- What the object of a line says of a record. -/
structure Describes (stack : Bool) (context : Fields Value) (r : Record) (object : Fields Value) :
    Prop where
  distinct : object.names.Nodup
  time : ∃ time, isoTime? r.time = some time ∧
    object.get? "ts" = some ((context.get? "ts").getD (.text time))
  level : object.get? "level" = some ((context.get? "level").getD (.text (levelName r.level)))
  logger : object.get? "logger" = some ((context.get? "logger").getD (.text r.logger))
  message : r.message ≠ [] →
    object.get? "message" = some ((context.get? "message").getD (.text r.message))
  fields : ∀ name v, (Format.json stack).shown context r name = some v → object.get? name = some v
  raised : ∀ kind message trace, r.problem = some (.raised kind message trace) →
    object.get? "error" = some (.record ([("type".toList, Value.text kind),
      ("message".toList, .text message)] ++ if stack then [("stack".toList, .text trace)] else []))
  absent : r.problem = some .absent →
    object.get? "error" = some (.record ([("type".toList, Value.text "Exception"),
      ("message".toList, .null)] ++ if stack then [("stack".toList, .text "NoneType: None")] else []))
  names : ∀ name ∈ object.names, name ∈ headNames ∨ (name = "message" ∧ r.message ≠ []) ∨
    (name = "error" ∧ r.problem ≠ none) ∨ ∃ v, (Format.json stack).shown context r name = some v

section Tells

variable {line time : Text}

theorem describes_jsonObject (stack : Bool) (distinct : context.names.Nodup)
    (dated : isoTime? r.time = some time) :
    Describes stack context r (jsonObject stack context time r) where
  distinct := nodup_jsonObject
  time := ⟨time, dated, get?_head distinct (List.mem_append_left _ List.mem_cons_self)⟩
  level := get?_head distinct (List.mem_append_left _ (List.mem_cons_of_mem _ List.mem_cons_self))
  logger := get?_head distinct (List.mem_append_left _
    (List.mem_cons_of_mem _ (List.mem_cons_of_mem _ List.mem_cons_self)))
  message filled := by
    have own : ("message".toList, Value.text r.message) ∈ header time r := by
      refine List.mem_append_right _ ?_
      rw [if_neg (by simpa using filled)]
      exact List.mem_singleton_self _
    exact get?_head distinct own
  fields _ _ told := get?_of_shown distinct told
  raised _ _ _ told := get?_error told
  absent told := get?_error told
  names name member := by
    obtain ⟨f, inside, rfl⟩ := List.mem_map.1 member
    rcases mem_jsonObject distinct inside with told | own | ⟨p, told, rfl⟩
    · exact .inr (.inr (.inr ⟨f.2, told⟩))
    · rcases mem_names_header.1 (List.mem_map_of_mem own) with head | message
      · exact .inl head
      · exact .inr (.inl message)
    · exact .inr (.inr (.inl ⟨rfl, by rw [told]; exact nofun⟩))

end Tells
end BranchGate.Log
