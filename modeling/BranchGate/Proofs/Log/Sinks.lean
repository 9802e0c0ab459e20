import BranchGate.Log.State

/-! The state of logging step by step. A level is resolved before anything is changed, so an unknown
name changes nothing; a sink is attached only in place of any other, so there is one at most; and a
call makes one record when it is admitted, and else none. -/
namespace BranchGate.Log

variable {s : State} {a : Action}

/-- The level that an action asks for. -/
def Action.level? : Action → Option LevelRef
  | .enable o => some o.level
  | .setLevel level => some level
  | .configure e => some (.name (e.level.getD "WARNING"))
  | _ => none

/-- What an action that asks for a level changes, once the level is known. -/
def State.leveled (s : State) (level : Int) : Action → State
  | .enable o => { s with sinks := [⟨level, o.format⟩] }
  | .setLevel _ => { s with level }
  | .configure e =>
    let format := if isOn e.pretty then .human else .json (isOn e.stack)
    { s with level, sinks := if isOn e.stdout then [⟨level, format⟩] else [] }
  | _ => s

section Command

variable {ref : LevelRef} {k : Int → Command Unit} {first : Command Unit}
  {next : Unit → Command Unit}

theorem outcome_known {level : Int} (known : ref.resolve = .ok level) :
    (Command.resolve ref >>= k).outcome s = (k level).outcome s := by
  rw [Command.resolve, known]
  rfl

theorem outcome_unknown {name : Text} (unknown : ref.resolve = .error name) :
    (Command.resolve ref >>= k).outcome s = failed s (.unknownLevel name) := by
  rw [Command.resolve, unknown]
  rfl

theorem run_bind : (first >>= next).run.run s =
    (ExceptT.bindCont next (first.run.run s).1).run (first.run.run s).2 := rfl

theorem outcome_bind_quiet {new : State} (passes : first.outcome s = quiet new) :
    (first >>= next).outcome s = (next ()).outcome new := by
  unfold Command.outcome at passes ⊢
  rw [run_bind]
  generalize first.run.run s = answer at passes
  obtain ⟨cause | _, new'⟩ := answer
  · cases passes
  · cases passes
    rfl

theorem outcome_bind_fault {new : State} {cause : Fault}
    (fails : first.outcome s = failed new cause) :
    (first >>= next).outcome s = failed new cause := by
  unfold Command.outcome at fails ⊢
  rw [run_bind]
  generalize first.run.run s = answer at fails
  obtain ⟨cause' | _, new'⟩ := answer
  · cases fails
    rfl
  · cases fails

end Command

theorem perform_known {ref : LevelRef} {level : Int} (asked : a.level? = some ref)
    (known : ref.resolve = .ok level) : s.perform a = quiet (s.leveled level a) := by
  cases a with
  | enable o =>
    cases asked
    exact outcome_known known
  | setLevel =>
    cases asked
    exact outcome_known known
  | configure e =>
    cases asked
    have first : (Command.setLevel (.name (e.level.getD "WARNING"))).outcome s =
        quiet { s with level } := outcome_known known
    rw [State.perform, Command.configure, outcome_bind_quiet first, State.leveled]
    -- what the first part resolved resolves again, so a new sink cannot fail half-way
    cases isOn e.stdout with
    | true =>
      rw [if_pos rfl, if_pos rfl, Command.enable, outcome_known known]
      cases isOn e.pretty <;> rfl
    | false => rfl
  | _ => cases asked

theorem perform_unknown {ref : LevelRef} {name : Text} (asked : a.level? = some ref)
    (unknown : ref.resolve = .error name) :
    s.perform a = failed s (.unknownLevel name) := by
  cases a with
  | enable o =>
    cases asked
    exact outcome_unknown unknown
  | setLevel =>
    cases asked
    exact outcome_unknown unknown
  | configure e =>
    cases asked
    have first : (Command.setLevel (.name (e.level.getD "WARNING"))).outcome s =
        failed s (.unknownLevel name) := outcome_unknown unknown
    rw [State.perform, Command.configure, outcome_bind_fault first]
  | _ => cases asked

/-- What a call does: it fails, or it is not admitted, or its record goes to the sinks. -/
theorem log_cases (s : State) (call : Call) :
    (∃ cause, (∀ name, cause ≠ .unknownLevel name) ∧ s.log call = failed s cause) ∨
    (s.admits call.level = false ∧ s.log call = quiet s) ∨
    ∃ r, s.admits call.level = true ∧ call.record s.now = .ok r ∧
      s.log call = ⟨s, [s.filtered call r], s.emit (s.filtered call r), none⟩ := by
  unfold State.log
  split
  next method name _ => exact .inl ⟨.repeatedArgument method name, nofun, rfl⟩
  next =>
    split
    next admitted =>
      split
      next cause _ => exact .inl ⟨.unrecorded cause, nofun, rfl⟩
      next r made => exact .inr (.inr ⟨r, admitted, made, rfl⟩)
    next refused => exact .inr (.inl ⟨by simpa using refused, rfl⟩)

theorem emit_admitted {sink : Sink} {r : Record} (sinks : s.sinks = [sink])
    (admitted : sink.level ≤ r.level) :
    s.emit r = match sink.format.write s.context r with
      | some line => line ++ ['\n']
      | none => [] := by
  rw [State.emit, sinks, List.filter_cons_of_pos (by simpa using admitted)]
  exact List.append_nil _

section Record

variable {call : Call} {r : Record} {time : Time}

theorem log_made (admitted : s.admits call.level = true) (unrepeated : call.repeated? = none)
    (made : call.record s.now = .ok r) :
    s.log call = ⟨s, [s.filtered call r], s.emit (s.filtered call r), none⟩ := by
  simp [State.log, unrepeated, admitted, made]

theorem record_of_free (told : Text.ofInt? call.level ≠ none)
    (free : ∀ name ∈ call.extras.names, isReserved name = false) : call.record time =
      .ok ⟨loggerName call.logger, call.level, call.message, time, call.extras, call.problem⟩ := by
  have clear : call.extras.names.find? isReserved = none :=
    List.find?_eq_none.2 fun name member => by simpa using free name member
  rw [Call.record, if_neg told, clear]

end Record

end BranchGate.Log
