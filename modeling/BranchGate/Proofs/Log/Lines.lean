import BranchGate.Proofs.Log.Loggers
import BranchGate.Proofs.Log.Shown

/-! The lines of the JSON form. A record that can be written makes one line, which reads back as one
object; the object has the fields of the context, those extras whose names are left, and the problem.
What the header says is the record's own where the context binds no field of that name, and the
context's where it does. -/
namespace BranchGate.Log

open Value

/-- The head of a line in the JSON form. The time, the level, the logger and a message that is not
empty are those of the record, whatever its extras and its problem are, except where the context binds
a field of the same name: then the line has the value that is bound. -/
theorem header_unless_bound (stack : Bool) (context : Fields Value) (r : Record) (time : Text)
    (distinct : context.names.Nodup) (written : isoTime? r.time = some time) :
    ∃ object, formatJson stack context r = (Value.record object).json ∧
      ((formatJson stack context r).isSome = true ↔ (Format.json stack).CanWrite context r) ∧
      ((∀ f ∈ context, f.2.Exact) → (∀ f ∈ r.extras, f.2.Exact) →
        ∀ line, formatJson stack context r = some line → Json.read? line = some (.record object)) ∧
      Fields.get? object "ts" = some ((context.get? "ts").getD (.text time)) ∧
      Fields.get? object "level" = some ((context.get? "level").getD (.text (levelName r.level))) ∧
      Fields.get? object "logger" = some ((context.get? "logger").getD (.text r.logger)) ∧
      (r.message ≠ [] →
        Fields.get? object "message" = some ((context.get? "message").getD (.text r.message))) := by
  have line : formatJson stack context r =
      (Value.record (jsonObject stack context time r)).json := by
    rw [formatJson, written]
    rfl
  have describes := describes_jsonObject stack distinct written
  obtain ⟨time', same, head⟩ := describes.time
  obtain rfl : time = time' := Option.some.inj (written.symm.trans same)
  refine ⟨jsonObject stack context time r, line, isSome_write (.json stack) distinct,
    fun bound given text json => ?_, head, describes.level, describes.logger, describes.message⟩
  exact read?_json (exact_jsonObject bound given) (line.symm.trans json)

/-- Extras with the names of the header, under a context that binds only the level. -/
theorem header_unless_bound_level :
    let context : Fields Value := [("level", .text "bound")]
    let r : Record := ⟨baseLogger, 40, "m", .ofInt 0,
      [("level", .text "extra"), ("logger", .text "extra"), ("message", .text "extra")], none⟩
    context.names.Nodup ∧ ∃ time, isoTime? r.time = some time ∧
      ∃ object, formatJson true context r = (Value.record object).json ∧
        (formatJson true context r).isSome = true ∧
        Fields.get? object "ts" = some (.text time) ∧
        Fields.get? object "level" = some (.text "bound") ∧
        Fields.get? object "logger" = some (.text baseLogger) ∧
        Fields.get? object "message" = some (.text "m") := by
  intro context r
  have writable : (isoTime? r.time).isSome = true := by decide +kernel
  obtain ⟨time, written⟩ := Option.isSome_iff_exists.1 writable
  obtain ⟨object, line, some, -, own, bound, logger, message⟩ :=
    header_unless_bound true context r time (by decide) written
  have short : (Value.record context).Short ∧ (Value.record r.extras).Short := by decide +kernel
  rw [Value.short_record, Value.short_record] at short
  have can : (Format.json true).CanWrite context r :=
    canWrite_of_short (by decide +kernel) short.1 short.2
  exact ⟨by decide, time, written, object, line, some.2 can, own, bound, logger,
    message (by decide)⟩

/-- A level bound in the context takes the place of the record's in its line. -/
theorem header_bound_over :
    let s := (State.initial (.ofInt 0)).after
      [.enable ⟨.number 10, true, false, false⟩, .bind [("level", .text "x")]]
    let call : Call := ⟨[], some "error", 40, "m", [], [], none⟩
    levelName call.level = "ERROR" ∧ (s.log call).fault = none ∧
      ∃ line object, (s.log call).printed = line ++ ['\n'] ∧
        Json.read? line = some (.record object) ∧
        Fields.get? object "level" = some (.text "x") := by
  intro s call
  let r : Record := ⟨baseLogger, 40, "m", .ofInt 0, [], none⟩
  have made : call.record s.now = .ok r := record_of_free (by decide) (by decide)
  have bound : ∀ f ∈ s.context, f.2 = .text "x" := List.forall_mem_singleton.2 rfl
  have can : (Format.json false).CanWrite s.context r :=
    canWrite_of_short (by decide +kernel) (fun f member => bound f member ▸ Value.short_of_text _)
      (List.forall_mem_nil _)
  obtain ⟨line, written, printed⟩ :=
    emit_writable (r := r) (show s.sinks = [⟨10, .json false⟩] from rfl) (by decide) (by decide) can
  obtain ⟨time, dated, written⟩ := Option.bind_eq_some_iff.1 written
  have exact : (Value.record (jsonObject false s.context time r)).Exact :=
    exact_jsonObject (fun f member => bound f member ▸ .text _) (List.forall_mem_nil _)
  rw [log_made rfl rfl made]
  refine ⟨rfl, rfl, line, jsonObject false s.context time r, ?_, read?_json exact written, ?_⟩
  · rw [emit_filtered, printed]
  · exact (describes_jsonObject false (by decide) dated).level

end BranchGate.Log
