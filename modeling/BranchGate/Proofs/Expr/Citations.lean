import BranchGate.Proofs.Expr.Threshold

/-! What the errors of the parser cite. The names and positions in them are those of tokens that
were read, whatever the rest of the tokens is. -/
namespace BranchGate

/-- The names, positions and limits in an error are those of some tokens and of an allowance. -/
def SyntaxError.Cites (allowed : Expr.Allowance) (ts : List Token) : SyntaxError → Prop
  | .unexpectedCharacter _ | .unterminatedString _ => False
  | .nestedTooDeeply limit => limit = allowed.depth
  | .propertyRefused n | .methodRefused n | .unknownIdentifier n => ∃ t ∈ ts, t.lexeme = .name n
  | .unexpectedToken _ pos => ∃ t ∈ ts, t.pos = pos
  | .expected .. | .indexTarget | .indexKey | .unexpectedEnd | .trailingTokens => True

def ReadError.Cites (allowed : Expr.Allowance) (ts : List Token) : ReadError → Prop
  | .malformed cause => cause.Cites allowed ts
  | .tooManyDigits _ => True

namespace Expr.Descent

variable {allowed : Allowance} {ts rest : List Token} {cause : ReadError}

section Parts

theorem expect_cites {p : Punct} (fails : expect p rest = .error cause) :
    cause.Cites allowed ts := by
  cases rest with
  | nil => cases fails; trivial
  | cons t rest =>
    rw [expect] at fails
    split at fails
    · cases fails
    · cases fails
      trivial

theorem expect_subset {p : Punct} {after : { left : List Token // left.length < rest.length }}
    (read : expect p rest = .ok after) : after.val ⊆ rest := by
  obtain ⟨t, _, taken⟩ := expect_taken read
  have suffix : after.val <:+ rest := ⟨[t], taken⟩
  exact suffix.subset

theorem afterMinus_cites (fails : afterMinus rest = .error cause) : cause.Cites allowed ts := by
  cases rest with
  | nil => cases fails; trivial
  | cons t rest =>
    rw [afterMinus] at fails
    split at fails
    · cases fails
    · cases fails
    · cases fails
      trivial

theorem afterBracket_cites {n : Nat} (fails : afterBracket n rest = .error cause) :
    cause.Cites allowed ts := by
  cases rest with
  | nil => cases fails; trivial
  | cons t rest =>
    rw [afterBracket] at fails
    split at fails
    next => cases fails; trivial
    next =>
      rcases bind_eq_error.1 fails with unclosed | ⟨_, _, fails⟩
      · exact expect_cites unclosed
      · cases fails

theorem propertyName_cites (fails : propertyName rest = .error cause) (read : rest ⊆ ts) :
    cause.Cites allowed ts := by
  cases rest with
  | nil => cases fails; trivial
  | cons t tail =>
    rw [propertyName] at fails
    split at fails
    next name isName =>
      split at fails
      · cases fails
        exact ⟨t, read List.mem_cons_self, isName⟩
      · cases fails
    next => cases fails; trivial

theorem ofName_cites {name : Text} {t : Token} (fails : ofName name = .error cause)
    (member : t ∈ ts) (isName : t.lexeme = .name name) : cause.Cites allowed ts := by
  unfold ofName at fails
  split at fails
  next => cases fails
  next =>
    split at fails
    next answer found =>
      obtain ⟨digits, _, rfl⟩ := Option.map_eq_some_iff.1 found
      unfold readDigits at fails
      split at fails
      · cases fails
        trivial
      · cases fails
    next =>
      cases fails
      exact ⟨t, member, isName⟩

theorem atom_cites {t : Token} (fails : atom t = .error cause) (member : t ∈ ts) :
    cause.Cites allowed ts := by
  unfold atom at fails
  split at fails
  next => cases fails
  next => cases fails
  next => cases fails
  next name isName => exact ofName_cites fails member isName
  next =>
    cases fails
    exact ⟨t, member, rfl⟩

end Parts

theorem propertyName_read {name : Text} {after : List Token}
    (read : propertyName rest = .ok (name, after)) : ∃ t ∈ rest, t.lexeme = .name name := by
  cases rest with
  | nil => cases read
  | cons t tail =>
    rw [propertyName] at read
    split at read
    next n isName =>
      split at read
      · cases read
      · cases read
        exact ⟨t, List.mem_cons_self, isName⟩
    next => cases read

/-- The method of a routine is a name among the tokens. -/
def Task.Cites (ts : List Token) : Task → Prop
  | .call _ name => ∃ t ∈ ts, t.lexeme = .name name
  | _ => True

theorem Task.operand_cites (level : OpLevel) : (Task.operand level).Cites ts := by
  cases level <;> trivial

theorem Task.inner_cites (task : Task) : task.inner.Cites ts := by
  cases task <;> trivial

/-- The tokens left, the methods that are open and an error raised all go back to some tokens. -/
structure Cited (allowed : Allowance) (ts : List Token) (s : State) : Prop where
  rest : s.rest ⊆ ts
  opened : ∀ a ∈ s.opened, a.task.Cites ts
  raised : ∀ cause, s.phase = .raised cause → cause.Cites allowed ts

namespace Cited

variable {s : State} {task : Task}

theorem take (cited : Cited allowed ts s) (left : rest ⊆ s.rest) :
    Cited allowed ts { s with rest } :=
  ⟨List.Subset.trans left cited.rest, cited.opened, cited.raised⟩

theorem calls (cited : Cited allowed ts s) (names : task.Cites ts) :
    Cited allowed ts (s.calls task) :=
  ⟨cited.rest, List.forall_mem_cons.2 ⟨names, cited.opened⟩, nofun⟩

theorem gives (cited : Cited allowed ts s) (e : Expr) : Cited allowed ts (s.gives e) :=
  ⟨cited.rest, fun a inside => cited.opened a (List.mem_of_mem_tail inside), nofun⟩

theorem keeps (cited : Cited allowed ts s) (e : Expr) : Cited allowed ts (s.keeps e) :=
  ⟨cited.rest, cited.opened, nofun⟩

theorem raises (cited : Cited allowed ts s) (cites : cause.Cites allowed ts) :
    Cited allowed ts (s.raises cause) :=
  ⟨cited.rest, cited.opened, fun _ same => Phase.raised.inj same ▸ cites⟩

/-- A block opened or closed changes no routine. -/
theorem opened_block (cited : Cited allowed ts s) (inBlock : Bool) :
    ∀ a ∈ s.opened.modifyHead fun a => { a with inBlock }, a.task.Cites ts := by
  have names := cited.opened
  cases shape : s.opened with
  | nil => exact nofun
  | cons a below =>
    rw [shape] at names
    obtain ⟨first, others⟩ := List.forall_mem_cons.1 names
    exact List.forall_mem_cons.2 ⟨first, others⟩

theorem enters (cited : Cited allowed ts s) : Cited allowed ts (s.enters allowed.depth) := by
  unfold State.enters
  split
  · exact cited.raises rfl
  · exact ⟨cited.rest, cited.opened_block true, nofun⟩

theorem leaves (cited : Cited allowed ts s) {phase : Phase}
    (raised : ∀ cause, phase = .raised cause → cause.Cites allowed ts) :
    Cited allowed ts (s.leaves phase) :=
  ⟨cited.rest, cited.opened_block false, raised⟩

theorem begin (cited : Cited allowed ts s) (task : Task) (names : task.Cites ts) :
    Cited allowed ts (Descent.begin allowed s task) := by
  cases task with
  | whole | suffixed => exact cited.calls trivial
  | operation level left => exact cited.calls (Task.operand_cites level)
  | unary =>
    simp only [Descent.begin]
    split
    next => exact cited.calls trivial
    next t rest shape =>
      have left : rest ⊆ s.rest := shape ▸ List.subset_cons_self t rest
      split
      next => exact (cited.take left).enters
      next =>
        split
        next number read =>
          have signed := cited.take (List.Subset.trans (afterMinus_suffix read).subset left)
          exact signed.gives number.value
        next fails => exact cited.raises (afterMinus_cites fails)
      next => exact cited.calls trivial
  | call target name =>
    simp only [Descent.begin]
    split
    next =>
      split
      next after opened =>
        have left := expect_subset opened
        split
        next =>
          have closed := cited.take (List.Subset.trans (List.tail_suffix _).subset left)
          exact closed.gives (.call target name)
        next => exact (cited.take left).enters
      next fails => exact cited.raises (expect_cites fails)
    next => exact cited.raises names
  | primary =>
    simp only [Descent.begin]
    split
    next => exact cited.raises trivial
    next t rest shape =>
      have left : rest ⊆ s.rest := shape ▸ List.subset_cons_self t rest
      split
      next => exact (cited.take left).enters
      next =>
        split
        next e read => exact (cited.take left).gives e
        next fails =>
          exact cited.raises (atom_cites fails (cited.rest (shape ▸ List.mem_cons_self)))

theorem resume (cited : Cited allowed ts s) (e : Expr) (task : Task) :
    Cited allowed ts (Descent.resume s e task) := by
  cases task with
  | unary => exact cited.gives e
  | whole =>
    simp only [Descent.resume]
    split
    · exact cited.gives e
    · exact cited.raises trivial
  | operation level left =>
    simp only [Descent.resume]
    split
    next => exact cited.gives _
    next t rest shape =>
      split
      next => exact cited.gives _
      next op known =>
        refine Cited.calls ⟨?_, ?_, ?_⟩ (Task.operand_cites level)
        · have left : rest ⊆ s.rest := shape ▸ List.subset_cons_self t rest
          exact List.Subset.trans left cited.rest
        · exact List.forall_mem_cons.2 ⟨trivial, (cited.gives e).opened⟩
        · exact cited.raised
  | suffixed =>
    simp only [Descent.resume]
    split
    next => exact cited.gives e
    next t rest shape =>
      have left : rest ⊆ s.rest := shape ▸ List.subset_cons_self t rest
      split
      next =>
        split
        next name after read =>
          have later := cited.take (List.Subset.trans (propertyName_suffix read).subset left)
          split
          · obtain ⟨u, member, isName⟩ := propertyName_read read
            exact later.calls ⟨u, cited.rest (left member), isName⟩
          · exact later.keeps _
        next fails =>
          have within := List.Subset.trans left cited.rest
          exact cited.raises (propertyName_cites fails within)
      next =>
        split
        next =>
          split
          next indexed read =>
            have keyed := cited.take (List.Subset.trans (afterBracket_suffix read).subset left)
            exact keyed.keeps indexed.value
          next fails => exact cited.raises (afterBracket_cites fails)
        next => exact cited.raises trivial
      next => exact cited.gives e
  | call target name | primary =>
    simp only [Descent.resume]
    split
    next read => exact (cited.take (expect_subset read)).gives _
    next fails => exact cited.raises (expect_cites fails)

/-- One step keeps to the tokens. -/
theorem next {s' : State} (cited : Cited allowed ts s) (step : Descent.next allowed s = some s') :
    Cited allowed ts s' := by
  obtain ⟨phase, opened, depth, rest⟩ := s
  cases opened with
  | nil => cases step
  | cons a below =>
    obtain ⟨task, inBlock⟩ := a
    have names := cited.opened ⟨task, inBlock⟩ List.mem_cons_self
    cases step
    cases phase with
    | going =>
      cases inBlock with
      | false => exact cited.begin task names
      | true => exact cited.calls task.inner_cites
    | gave e =>
      cases inBlock with
      | false => exact cited.resume e task
      | true => exact cited.leaves nofun
    | raised cause =>
      cases inBlock with
      | false => exact ⟨cited.rest, (List.forall_mem_cons.1 cited.opened).2, cited.raised⟩
      | true => exact cited.leaves fun _ same => cited.raised _ same

theorem reaches {s' : State} (cited : Cited allowed ts s) (run : Reaches allowed s s') :
    Cited allowed ts s' := by
  induction run with
  | refl => exact cited
  | tail _ step ih => exact ih.next step

end Cited

end Descent

/-- The errors of the parser cite the tokens that it is given. -/
theorem parse_cites {allowed : Allowance} {ts : List Token} {cause : ReadError}
    (fails : parse allowed ts = .error cause) : cause.Cites allowed ts := by
  obtain ⟨s, run, answered⟩ := Descent.reaches_parse allowed ts
  rw [fails] at answered
  have start : Descent.Cited allowed ts (.start ts) :=
    ⟨List.Subset.refl ts, List.forall_mem_singleton.2 trivial, nofun⟩
  have cited := start.reaches run
  obtain ⟨phase, opened, depth, rest⟩ := s
  cases opened with
  | cons => cases phase <;> cases answered
  | nil =>
    cases phase with
    | raised cause' =>
      cases answered
      exact cited.raised _ rfl
    | going | gave => cases answered

end Expr
end BranchGate
