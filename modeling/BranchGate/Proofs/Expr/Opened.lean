import BranchGate.Expr.Descent
import Mathlib.Logic.Relation

/-! The routines that are open at once. A routine opens the one in the next row of the grammar, and
only from inside a block does it go back to an earlier row; so the blocks that are open bound the
routines that are open, and are what the counter counts. -/
namespace BranchGate.Expr.Descent

/-- The row of the grammar that a routine reads. -/
def Task.row : Task → Nat
  | .whole => 0
  | .operation .or _ => 1
  | .operation .and _ => 2
  | .operation .equality _ => 3
  | .operation .relation _ => 4
  | .unary => 5
  | .suffixed => 6
  | .call _ _ | .primary => 7

/-- Routines that have a block. -/
def Activation.Fits (a : Activation) : Prop := a.inBlock = true → 5 ≤ a.task.row

theorem fits_outside (task : Task) : Activation.Fits ⟨task, false⟩ := nofun

/-- Routines that may be open together, the innermost first. -/
inductive Stacked : List Activation → Prop
  | none : Stacked []
  | whole {a} : a.task.row = 0 → a.Fits → Stacked [a]
  | plain {a b below} : Stacked (b :: below) → b.inBlock = false → a.task.row = b.task.row + 1 →
      a.Fits → Stacked (a :: b :: below)
  | block {a b below} : Stacked (b :: below) → b.inBlock = true →
      a.task.row = 1 ∨ a.task.row = 5 → a.Fits → Stacked (a :: b :: below)

def blocks (opened : List Activation) : Nat := opened.countP Activation.inBlock

def unaries (opened : List Activation) : Nat := opened.countP fun a => a.task.isUnary

theorem Task.isUnary_iff {task : Task} : task.isUnary = true ↔ task.row = 5 := by
  cases task with
  | operation level left => cases level <;> simp [isUnary, row]
  | whole | unary | suffixed | call | primary => simp [isUnary, row]

theorem Task.row_le (task : Task) : task.row ≤ 7 := by
  cases task with
  | operation level left => cases level <;> simp [row]
  | whole | unary | suffixed | call | primary => simp [row]

theorem Task.operand_row (level : OpLevel) (left : Option (Expr × BinOp)) :
    (Task.operand level).row = (Task.operation level left).row + 1 := by
  cases level <;> rfl

theorem Task.inner_row (task : Task) : task.inner.row = 1 ∨ task.inner.row = 5 := by
  cases task with
  | unary => exact .inr rfl
  | whole | operation | suffixed | call | primary => exact .inl rfl

theorem Stacked.tail {opened : List Activation} (stacked : Stacked opened) :
    Stacked opened.tail := by
  cases stacked with
  | none => exact .none
  | whole => exact .none
  | plain lower => exact lower
  | block lower => exact lower

theorem Stacked.fits {a : Activation} {below : List Activation} (stacked : Stacked (a :: below)) :
    a.Fits := by
  cases stacked <;> assumption

/-- The innermost routine may be exchanged for another of its row. -/
theorem Stacked.exchange {a a' : Activation} {below : List Activation}
    (stacked : Stacked (a :: below)) (same : a'.task.row = a.task.row) (fits : a'.Fits) :
    Stacked (a' :: below) := by
  cases stacked with
  | whole first => exact .whole (same.trans first) fits
  | plain lower outside next => exact .plain lower outside (same.trans next) fits
  | block lower inside back => exact .block lower inside (same ▸ back) fits

theorem blocks_outside {a : Activation} (outside : a.inBlock = false) (below : List Activation) :
    blocks (a :: below) = blocks below := by
  simp [blocks, outside]

theorem blocks_inside {a : Activation} (inside : a.inBlock = true) (below : List Activation) :
    blocks (a :: below) = blocks below + 1 := by
  simp [blocks, inside]

theorem unaries_cons (a : Activation) (below : List Activation) :
    unaries (a :: below) = unaries below + if a.task.row = 5 then 1 else 0 := by
  simp only [unaries, List.countP_cons, Task.isUnary_iff]

theorem Stacked.counted {a : Activation} {below : List Activation} (stacked : Stacked (a :: below)) :
    unaries (a :: below) = blocks below + (if 5 ≤ a.task.row then 1 else 0) ∧
      (a :: below).length ≤ 7 * blocks below + a.task.row + 1 := by
  -- along the stack: outside a block the next row follows, and each block allows seven rows more
  generalize whole : a :: below = opened at stacked
  induction stacked generalizing a below with
  | none => cases whole
  | whole first _ =>
    cases whole
    rw [unaries_cons, first]
    simp [unaries, blocks]
  | @plain a b below lower outside next _ ih =>
    cases whole
    obtain ⟨unary, length⟩ := ih rfl
    rw [unaries_cons, unary, blocks_outside outside, next]
    simp only [List.length_cons] at length ⊢
    refine ⟨?_, by omega⟩
    split <;> split <;> split <;> omega
  | @block a b below lower inside back _ ih =>
    cases whole
    obtain ⟨unary, length⟩ := ih rfl
    have row := lower.fits inside
    have bound := b.task.row_le
    rw [unaries_cons, unary, blocks_inside inside, if_pos row]
    simp only [List.length_cons] at length ⊢
    rcases back with first | again
    · exact ⟨by simp [first], by omega⟩
    · exact ⟨by simp [again], by omega⟩

/-- What holds of the open routines and the counter at every moment of a descent. -/
structure Sound (allowed : Allowance) (opened : List Activation) (depth : Nat) : Prop where
  stacked : Stacked opened
  counter : depth = blocks opened
  limit : depth ≤ allowed.depth.value.toNat

namespace Sound

variable {allowed : Allowance} {a : Activation} {below : List Activation} {depth : Nat}

theorem start (allowed : Allowance) : Sound allowed [⟨.whole, false⟩] 0 where
  stacked := .whole rfl (fits_outside _)
  counter := rfl
  limit := Nat.zero_le _

theorem closes (sound : Sound allowed (a :: below) depth) (outside : a.inBlock = false) :
    Sound allowed below depth where
  stacked := sound.stacked.tail
  counter := sound.counter.trans (blocks_outside outside below)
  limit := sound.limit

theorem calls (sound : Sound allowed (a :: below) depth) (outside : a.inBlock = false)
    {task : Task} (next : task.row = a.task.row + 1) :
    Sound allowed (⟨task, false⟩ :: a :: below) depth where
  stacked := .plain sound.stacked outside next (fits_outside _)
  counter := sound.counter.trans (blocks_outside rfl _).symm
  limit := sound.limit

theorem callsInner (sound : Sound allowed (a :: below) depth) (inside : a.inBlock = true) :
    Sound allowed (⟨a.task.inner, false⟩ :: a :: below) depth where
  stacked := .block sound.stacked inside a.task.inner_row (fits_outside _)
  counter := sound.counter.trans (blocks_outside rfl _).symm
  limit := sound.limit

theorem enters {task : Task} (sound : Sound allowed (⟨task, false⟩ :: below) depth)
    (late : 5 ≤ task.row) (phase : Phase) (rest : List Token) :
    let s := State.enters ⟨phase, ⟨task, false⟩ :: below, depth, rest⟩ allowed.depth
    Sound allowed s.opened s.depth := by
  unfold State.enters
  split
  next => exact sound
  next room =>
    refine ⟨sound.stacked.exchange rfl fun _ => late, ?_, ?_⟩
    · have counter := sound.counter
      rw [blocks_outside rfl] at counter
      exact counter ▸ (blocks_inside rfl below).symm
    · simp only at room ⊢
      omega

theorem leaves {task : Task} (sound : Sound allowed (⟨task, true⟩ :: below) depth) :
    Sound allowed (⟨task, false⟩ :: below) (depth - 1) where
  stacked := sound.stacked.exchange rfl (fits_outside _)
  counter := by
    rw [sound.counter, blocks_inside rfl, blocks_outside rfl, Nat.add_sub_cancel]
  limit := Nat.le_trans (Nat.sub_le _ _) sound.limit

end Sound

section Step

variable {allowed : Allowance} {task : Task} {below : List Activation} {depth : Nat}

theorem sound_begin (sound : Sound allowed (⟨task, false⟩ :: below) depth) (phase : Phase)
    (rest : List Token) :
    let s := begin allowed ⟨phase, ⟨task, false⟩ :: below, depth, rest⟩ task
    Sound allowed s.opened s.depth := by
  cases task with
  | whole => exact sound.calls rfl rfl
  | operation level left => exact sound.calls rfl (Task.operand_row level left)
  | unary =>
    simp only [begin]
    split
    · exact sound.calls rfl rfl
    · split
      · exact sound.enters (Nat.le_refl 5) _ _
      · split
        · exact sound.closes rfl
        · exact sound
      · exact sound.calls rfl rfl
  | suffixed => exact sound.calls rfl rfl
  | call target name =>
    simp only [begin]
    split
    · split
      · split
        · exact sound.closes rfl
        · exact sound.enters (by decide : 5 ≤ 7) _ _
      · exact sound
    · exact sound
  | primary =>
    simp only [begin]
    split
    · exact sound
    · split
      · exact sound.enters (by decide : 5 ≤ 7) _ _
      · split
        · exact sound.closes rfl
        · exact sound

theorem sound_resume (sound : Sound allowed (⟨task, false⟩ :: below) depth) (phase : Phase)
    (rest : List Token) (e : Expr) :
    let s := resume ⟨phase, ⟨task, false⟩ :: below, depth, rest⟩ e task
    Sound allowed s.opened s.depth := by
  cases task with
  | whole =>
    simp only [resume]
    split
    · exact sound.closes rfl
    · exact sound
  | operation level left =>
    simp only [resume]
    split
    · exact sound.closes rfl
    · split
      · exact sound.closes rfl
      next op _ =>
        -- the loop over operators goes on in the same routine, with what it has read by now
        have goesOn : Sound allowed
            (⟨.operation level (some (joined left e, op)), false⟩ :: below) depth :=
          ⟨sound.stacked.exchange (by cases level <;> rfl) (fits_outside _),
            sound.counter, sound.limit⟩
        exact goesOn.calls rfl (Task.operand_row level _)
  | unary => exact sound.closes rfl
  | suffixed =>
    simp only [resume]
    split
    · exact sound.closes rfl
    · split
      · split
        · split
          · exact sound.calls rfl rfl
          · exact sound
        · exact sound
      · split
        · split
          · exact sound
          · exact sound
        · exact sound
      · exact sound.closes rfl
  | call target name =>
    simp only [resume]
    split
    · exact sound.closes rfl
    · exact sound
  | primary =>
    simp only [resume]
    split
    · exact sound.closes rfl
    · exact sound

/-- One step of a descent. -/
theorem Sound.next {s s' : State} (sound : Sound allowed s.opened s.depth)
    (step : next allowed s = some s') : Sound allowed s'.opened s'.depth := by
  obtain ⟨phase, opened, depth, rest⟩ := s
  cases opened with
  | nil => simp [Descent.next] at step
  | cons a below =>
    obtain ⟨task, inBlock⟩ := a
    simp only [Descent.next, Option.some.injEq] at step
    subst step
    cases phase with
    | going =>
      cases inBlock with
      | false => exact sound_begin sound _ _
      | true => exact sound.callsInner rfl
    | gave e =>
      cases inBlock with
      | false => exact sound_resume sound _ _ _
      | true => exact sound.leaves
    | raised cause =>
      cases inBlock with
      | false => exact sound.closes rfl
      | true => exact sound.leaves

end Step

/-- One state after another, by any number of steps. -/
def Reaches (allowed : Allowance) : State → State → Prop :=
  Relation.ReflTransGen fun s s' => next allowed s = some s'

theorem Sound.reaches {allowed : Allowance} {s s' : State}
    (sound : Sound allowed s.opened s.depth) (run : Reaches allowed s s') :
    Sound allowed s'.opened s'.depth := by
  induction run with
  | refl => exact sound
  | tail _ step ih => exact ih.next step

theorem Sound.length_le {allowed : Allowance} {opened : List Activation} {depth : Nat}
    (sound : Sound allowed opened depth) :
    opened.length ≤ 7 * (allowed.depth.value.toNat + 1) + 1 := by
  have counter := sound.counter
  have limit := sound.limit
  cases opened with
  | nil => exact Nat.zero_le _
  | cons a below =>
    obtain ⟨-, length⟩ := sound.stacked.counted
    have row := a.task.row_le
    have lower : blocks below ≤ blocks (a :: below) := by
      simp only [blocks, List.countP_cons]
      omega
    omega

theorem Sound.unaries_eq {allowed : Allowance} {opened : List Activation} {depth : Nat}
    (sound : Sound allowed opened depth) :
    unaries opened = depth ∨ unaries opened = depth + 1 := by
  have counter := sound.counter
  cases opened with
  | nil => exact .inl counter.symm
  | cons a below =>
    obtain ⟨unary, -⟩ := sound.stacked.counted
    have fits := sound.stacked.fits
    rw [unary, counter]
    cases inside : a.inBlock with
    | false =>
      rw [blocks_outside inside]
      split
      · exact .inr rfl
      · exact .inl rfl
    | true =>
      rw [blocks_inside inside, if_pos (fits inside)]
      exact .inl rfl

/-- The counter can be told from the routines that are open. -/
theorem Sound.depth_eq {allowed : Allowance} {opened : List Activation} {depth depth' : Nat}
    (sound : Sound allowed opened depth) (sound' : Sound allowed opened depth') :
    depth = depth' :=
  sound.counter.trans sound'.counter.symm

end BranchGate.Expr.Descent
