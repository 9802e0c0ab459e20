import BranchGate.Proofs.Fields
import BranchGate.Proofs.Log.Sinks

/-! Contexts nest. Leaving a block brings back the context with which it was entered, whatever was
bound or entered inside and whatever failed there; inside, the context is that of the entry with the
fields bound since put in one after the other; and no context holds a null, or a name twice. -/
namespace BranchGate.Log

/-- The fields bound in each open block, in the order of binding. -/
structure Blocks where
  inner : Fields Value
  /-- What the blocks around the innermost one have bound, from the inside out; the last of them
  stands for what is bound outside all blocks. -/
  outer : List (Fields Value)

namespace Blocks

/-- The fields that are in force, from the outermost block inwards. -/
def bound (b : Blocks) : Fields Value := (b.inner :: b.outer).reverse.flatten

/-- The open blocks after an action; none if it leaves a block that was not entered. What was bound
in a block goes when the block is left. -/
def step? (b : Blocks) : Action → Option Blocks
  | .bind fields => some { b with inner := b.inner ++ fields }
  | .push fields => some ⟨fields, b.inner :: b.outer⟩
  | .pop =>
    match b.outer with
    | [] => none
    | inner :: outer => some ⟨inner, outer⟩
  | _ => some b

/-- The open blocks after further actions. -/
def after? (b : Blocks) (actions : List Action) : Option Blocks := actions.foldlM step? b

end Blocks

/-- The blocks that a history has entered and not left; none if it leaves one that it has not
entered. -/
def blocks? (history : List Action) : Option Blocks := Blocks.after? ⟨[], []⟩ history

/-- Every block that is entered is left, and none else. -/
def WellNested (history : List Action) : Prop := ∃ bound, blocks? history = some ⟨bound, []⟩

def nonNull (fields : Fields Value) : Fields Value := fields.filter fun f => !f.2.isNull

/-- A context with fields put in one after the other: a name stays where it first came, and of
several values the last counts. -/
structure Updated (context fields new : Fields Value) : Prop where
  names : new.names = context.names ++ (fields.names.removeAll context.names).eraseDups
  values : ∀ name, new.get? name = (Fields.get? fields.reverse name).or (context.get? name)

structure Clean (context : Fields Value) : Prop where
  nullFree : ∀ f ∈ context, f.2.isNull = false
  distinct : context.names.Nodup

/-- The context in force and those to go back to. -/
def State.contexts (s : State) : List (Fields Value) := s.context :: s.saved

section Bound

variable {context fields more : Fields Value}

theorem updated_bound : Updated context (nonNull fields) (State.bound context fields) :=
  ⟨Fields.names_putAll, fun _ => Fields.get?_putAll⟩

theorem bound_append :
    State.bound (State.bound context fields) more = State.bound context (fields ++ more) := by
  simp only [State.bound, Fields.putAll, List.filter_append, List.foldl_append]

theorem Clean.bound (clean : Clean context) : Clean (State.bound context fields) where
  nullFree := Fields.forall_putAll (p := fun v : Value => v.isNull = false) clean.nullFree
    fun f member => by simpa using (List.mem_filter.1 member).2
  distinct := Fields.nodup_names_putAll clean.distinct _

end Bound

section Step

variable {s start : State} {a : Action} {b b' : Blocks}

/-- What an action does to contexts. One that neither binds nor enters nor leaves does nothing to
them, also when it fails. -/
theorem contexts_cases (s : State) (a : Action) :
    (∃ fields, a = .bind fields) ∨ (∃ fields, a = .push fields) ∨ a = .pop ∨
      ((∀ b : Blocks, b.step? a = some b) ∧ (s.perform a).state.contexts = s.contexts) := by
  have asks {ref : LevelRef} (asked : a.level? = some ref) :
      (s.perform a).state.contexts = s.contexts := by
    cases known : ref.resolve with
    | error name => rw [perform_unknown asked known, failed]
    | ok level =>
      rw [perform_known asked known]
      cases a with
      | enable | setLevel | configure => rfl
      | _ => cases asked
  cases a with
  | bind fields => exact .inl ⟨fields, rfl⟩
  | push fields => exact .inr (.inl ⟨fields, rfl⟩)
  | pop => exact .inr (.inr (.inl rfl))
  | enable | setLevel | configure => exact .inr (.inr (.inr ⟨fun _ => rfl, asks rfl⟩))
  | disable | setClock | validate | preValidate => exact .inr (.inr (.inr ⟨fun _ => rfl, rfl⟩))
  | log call =>
    refine .inr (.inr (.inr ⟨fun _ => rfl, ?_⟩))
    rw [State.perform]
    rcases log_cases s call with ⟨cause, _, done⟩ | ⟨_, done⟩ | ⟨r, _, _, done⟩
    · rw [done, failed]
    · rw [done, quiet]
    · rw [done]

/-- The contexts to go back to, from the blocks that are open since a state. -/
def State.entered (start : State) : List (Fields Value) → List (Fields Value)
  | [] => start.saved
  | inner :: outer =>
    State.bound start.context (inner :: outer).reverse.flatten :: start.entered outer

/-- The contexts of a state are what the blocks open since another one make them. -/
structure Since (start : State) (b : Blocks) (s : State) : Prop where
  context : s.context = State.bound start.context b.bound
  saved : s.saved = start.entered b.outer

theorem since_refl (s : State) : Since s ⟨[], []⟩ s := ⟨rfl, rfl⟩

theorem Since.step (since : Since start b s) (steps : b.step? a = some b') :
    Since start b' (s.perform a).state := by
  obtain ⟨context, saved⟩ := since
  rcases contexts_cases s a with ⟨fields, rfl⟩ | ⟨fields, rfl⟩ | rfl | ⟨idle, same⟩
  · cases steps
    refine ⟨?_, saved⟩
    change State.bound s.context fields = _
    rw [context, bound_append]
    simp [Blocks.bound]
  · cases steps
    refine ⟨?_, ?_⟩
    · change State.bound s.context fields = _
      rw [context, bound_append]
      simp [Blocks.bound]
    · change s.context :: s.saved = _
      rw [context, saved]
      rfl
  · -- A block is open, so the first of the saved contexts is that of the block around it.
    obtain ⟨_, _ | ⟨inner, outer⟩⟩ := b
    · cases steps
    · cases steps
      rw [State.perform, quiet, State.pop, saved]
      exact ⟨rfl, rfl⟩
  · cases (idle b).symm.trans steps
    obtain ⟨context', saved'⟩ := List.cons.inj same
    exact ⟨context'.trans context, saved'.trans saved⟩

theorem Since.run {actions : List Action} (since : Since start b s)
    (runs : b.after? actions = some b') : Since start b' (s.after actions) := by
  induction actions generalizing b s with
  | nil =>
    cases runs
    exact since
  | cons a actions ih =>
    obtain ⟨next, steps, runs⟩ := Option.bind_eq_some_iff.1 (List.foldlM_cons.symm.trans runs)
    exact ih (since.step steps) runs

theorem clean_step (clean : ∀ context ∈ s.contexts, Clean context) :
    ∀ context ∈ (s.perform a).state.contexts, Clean context := by
  obtain ⟨here, back⟩ := List.forall_mem_cons.1 clean
  rcases contexts_cases s a with ⟨fields, rfl⟩ | ⟨fields, rfl⟩ | rfl | ⟨_, same⟩
  · exact List.forall_mem_cons.2 ⟨here.bound, back⟩
  · exact List.forall_mem_cons.2 ⟨here.bound, clean⟩
  · rw [State.perform, quiet, State.pop]
    split
    · exact clean
    next saved => rwa [saved] at back
  · rwa [same]

theorem clean_after {actions : List Action} (clean : ∀ context ∈ s.contexts, Clean context) :
    ∀ context ∈ (s.after actions).contexts, Clean context := by
  induction actions generalizing s with
  | nil => exact clean
  | cons a actions ih => exact ih (clean_step clean)

end Step

/-- Log contexts nest, from every state on. A block that is left leaves the contexts as they were
when it was entered. Inside a block, whatever blocks inside it are open, the context is the one at
the entry, updated in order by the fields that the block was entered with and that were bound since
and not given up, nulls left out. No null ever comes into a context, and no name comes twice. -/
theorem contexts_nest (s : State) :
    (∀ fields inside, WellNested inside →
      let left := s.after (.push fields :: (inside ++ [.pop]))
      left.context = s.context ∧ left.saved = s.saved) ∧
    (∀ fields inside blocks, blocks? inside = some blocks →
      Updated s.context (nonNull (fields ++ blocks.bound))
        (s.after (.push fields :: inside)).context) ∧
    (∀ actions, (∀ context ∈ s.contexts, Clean context) →
      ∀ context ∈ (s.after actions).contexts, Clean context) ∧
    ∀ now actions, ∀ context ∈ ((State.initial now).after actions).contexts, Clean context := by
  refine ⟨fun fields inside nested => ?_, fun fields inside blocks runs => ?_,
    fun _ clean => clean_after clean, fun now _ => clean_after ?_⟩
  · -- The blocks inside are all left, so what is saved on top is the context of the entry.
    obtain ⟨bound, runs⟩ := nested
    have inner := (since_refl (s.push fields)).run runs
    have left : s.after (.push fields :: (inside ++ [.pop])) = ((s.push fields).after inside).pop :=
      List.foldl_append
    simp only [left, State.pop, inner.saved]
    exact ⟨rfl, rfl⟩
  · have inner := (since_refl (s.push fields)).run runs
    have context : (s.after (.push fields :: inside)).context =
        State.bound s.context (fields ++ blocks.bound) := inner.context.trans bound_append
    rw [context]
    exact updated_bound
  · exact List.forall_mem_singleton.2 ⟨List.forall_mem_nil _, List.nodup_nil⟩

/-- A block in which a field is bound again, an inner block is left, and two steps fail. -/
theorem contexts_nest_rebound :
    let s : State := { State.initial (.ofInt 0) with
      context := [("run", .text "r1"), ("node", .text "n1")] }
    let fields : Fields Value := [("node", .text "n2"), ("skip", .null)]
    let refused : Action := .log ⟨[], none, 50, "refused", [("message", .text "m")], [], none⟩
    let unknown : Action := .setLevel (.name "LOUD")
    let inside := [.bind [("step", .integer 1)], .push [("run", .text "r2"), ("tmp", .bool true)],
      refused, .pop, unknown, .bind [("node", .text "n3"), ("step", .null)]]
    let within := s.after (.push fields :: inside)
    (s.perform refused).fault = some (.unrecorded (.reservedField "message")) ∧
      (s.perform unknown).fault = some (.unknownLevel "LOUD") ∧ WellNested inside ∧
      (∀ context ∈ s.contexts, Clean context) ∧
      within.context =
        ([("run", .text "r1"), ("node", .text "n3"), ("step", .integer 1)] : Fields Value) ∧
      within.context.names = (["run", "node", "step"] : List Text) ∧
      (∀ context ∈ within.contexts, Clean context) ∧
      (s.after (.push fields :: (inside ++ [.pop]))).context = s.context := by
  intro s fields refused unknown inside within
  have nested : WellNested inside := ⟨_, rfl⟩
  have clean : ∀ context ∈ s.contexts, Clean context := by
    refine List.forall_mem_singleton.2 ⟨?_, by decide⟩
    exact List.forall_mem_cons.2 ⟨rfl, List.forall_mem_singleton.2 rfl⟩
  obtain ⟨leaving, inner, kept, -⟩ := contexts_nest s
  refine ⟨rfl, rfl, nested, clean, rfl, ?_, kept _ clean, (leaving fields inside nested).1⟩
  exact (inner fields inside _ rfl).names

end BranchGate.Log
