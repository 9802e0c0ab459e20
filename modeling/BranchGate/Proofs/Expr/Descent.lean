import BranchGate.Proofs.Expr.Opened
import Mathlib.Logic.Function.Iterate

/-! A descent ends, with what the parser answers. A routine that is opened is closed again by the
value and the rest, or by the error, that its parser gives, with the counter as it was; the loops
over operators and suffixes are followed by induction on the tokens left, the blocks by induction on
the levels left. -/
namespace BranchGate.Expr.Descent

/-- From `s` the descent comes down to `opened` with this answer. -/
def Ends (allowed : Allowance) (s : State) (opened : List Activation) (depth : Nat) {n : Nat} :
    Except ReadError (Parsed n) → Prop
  | .ok r => Reaches allowed s ⟨.gave r.value, opened, depth, r.rest⟩
  | .error cause => ∃ rest, Reaches allowed s ⟨.raised cause, opened, depth, rest⟩

/-- A routine answers as this parser does, wherever it is called. -/
def Runs (allowed : Allowance) (depth : Nat) (task : Task) (parser : Parser) : Prop :=
  ∀ (below : List Activation) (rest : List Token),
    Ends allowed ⟨.going, ⟨task, false⟩ :: below, depth, rest⟩ below depth (parser rest)

section Ends

variable {allowed : Allowance} {s s' : State} {opened below : List Activation} {depth m n : Nat}
  {x : Except ReadError (Parsed m)} {k : Parsed m → Except ReadError (Parsed n)} {task : Task}
  {e : Expr} {rest : List Token} {cause : ReadError}

theorem Ends.after (ends : Ends allowed s' opened depth x) (run : Reaches allowed s s') :
    Ends allowed s opened depth x := by
  cases x with
  | ok r => exact run.trans ends
  | error cause =>
    obtain ⟨rest, more⟩ := ends
    exact ⟨rest, run.trans more⟩

theorem Ends.step (ends : Ends allowed s' opened depth x) (step : next allowed s = some s') :
    Ends allowed s opened depth x :=
  ends.after (Relation.ReflTransGen.single step)

theorem Ends.began
    (ends : Ends allowed (begin allowed ⟨.going, ⟨task, false⟩ :: below, depth, rest⟩ task) below
      depth x) :
    Ends allowed ⟨.going, ⟨task, false⟩ :: below, depth, rest⟩ below depth x :=
  ends.step rfl

theorem Ends.resumed
    (ends : Ends allowed (resume ⟨.gave e, ⟨task, false⟩ :: below, depth, rest⟩ e task) opened
      depth x) :
    Ends allowed ⟨.gave e, ⟨task, false⟩ :: below, depth, rest⟩ opened depth x :=
  ends.step rfl

theorem Ends.gave {shorter : rest.length < m} :
    Ends allowed ⟨.gave e, opened, depth, rest⟩ opened depth (.ok (⟨e, rest, shorter⟩ : Parsed m)) :=
  Relation.ReflTransGen.refl

theorem Ends.raised : Ends allowed ⟨.raised cause, opened, depth, rest⟩ opened depth
    (.error cause : Except ReadError (Parsed m)) :=
  ⟨rest, Relation.ReflTransGen.refl⟩

/-- An error closes the routine that raised it. -/
theorem Ends.raises : Ends allowed ⟨.raised cause, ⟨task, false⟩ :: below, depth, rest⟩ below depth
    (.error cause : Except ReadError (Parsed m)) :=
  Ends.raised.step rfl

/-- The bound of what is left does not matter. -/
theorem Ends.rebound {shorter : ∀ r : Parsed m, r.rest.length < n}
    (ends : Ends allowed s opened depth x) :
    Ends allowed s opened depth (x >>= fun r => .ok (⟨r.value, r.rest, shorter r⟩ : Parsed n)) := by
  cases x with
  | ok r => exact ends
  | error cause => exact ends

/-- A routine goes on from what it called. -/
theorem Ends.bind (first : Ends allowed s (⟨task, false⟩ :: below) depth x)
    (more : ∀ r, Ends allowed ⟨.gave r.value, ⟨task, false⟩ :: below, depth, r.rest⟩ below depth
      (k r)) :
    Ends allowed s below depth (x >>= k) := by
  cases x with
  | ok r => exact (more r).after first
  | error cause =>
    obtain ⟨rest, run⟩ := first
    exact Ends.raises.after run

/-- A routine goes on from what it called inside its block, once it has left the block. -/
theorem Ends.block (first : Ends allowed s (⟨task, true⟩ :: below) (depth + 1) x)
    (more : ∀ r, Ends allowed ⟨.gave (task.wrap r.value), ⟨task, false⟩ :: below, depth, r.rest⟩
      below depth (k r)) :
    Ends allowed s below depth (x >>= k) := by
  cases x with
  | ok r => exact ((more r).step rfl).after first
  | error cause =>
    obtain ⟨rest, run⟩ := first
    exact (Ends.raises.step rfl).after run

end Ends

section Runs

variable {allowed : Allowance} {depth : Nat} {nested operand parser : Parser} {task : Task}
  {below : List Activation}

theorem ends_chainFrom {level : OpLevel} (runs : Runs allowed depth (.operand level) operand)
    (left : Option (Expr × BinOp)) (e : Expr) (rest : List Token) :
    Ends allowed ⟨.gave e, ⟨.operation level left, false⟩ :: below, depth, rest⟩ below depth
      (chainFrom level operand (joined left e) rest) := by
  -- by the tokens left, of which an operator and its operand take some
  obtain ⟨n, size⟩ : ∃ n, rest.length = n := ⟨_, rfl⟩
  induction n using Nat.strongRecOn generalizing left e rest with
  | _ n ih =>
    subst size
    rw [chainFrom.eq_def]
    cases rest with
    | nil => exact Ends.gave.resumed
    | cons t rest =>
      refine Ends.resumed ?_
      simp only [resume]
      cases level.operator? t.lexeme with
      | none => exact Ends.gave
      | some op =>
        refine (runs _ rest).bind fun right => ?_
        refine Ends.rebound (ih _ ?_ (some (joined left e, op)) right.value right.rest rfl)
        have := right.shorter
        simp only [List.length_cons]
        omega

theorem runs_chain {level : OpLevel} (runs : Runs allowed depth (.operand level) operand) :
    Runs allowed depth (.operation level none) (chain level operand) := by
  intro below rest
  refine Ends.began ((runs _ rest).bind fun first => ?_)
  exact (ends_chainFrom runs none first.value first.rest).rebound

theorem runs_operation (runs : Runs allowed depth .unary operand) :
    Runs allowed depth (.operation .or none) (operation operand) :=
  have relation : Runs allowed depth (.operand .equality) (chain .relation operand) :=
    runs_chain runs
  have equality : Runs allowed depth (.operand .and) _ := runs_chain relation
  have and : Runs allowed depth (.operand .or) _ := runs_chain equality
  runs_chain and

/-- What reads inside a block: it raises where the limit is reached and else runs one level
deeper. -/
def Nested (allowed : Allowance) (depth : Nat) (nested : Parser) : Prop :=
  (allowed.depth.value ≤ depth ∧ nested = fun _ => fail (.nestedTooDeeply allowed.depth)) ∨
    (¬ allowed.depth.value ≤ depth ∧ Runs allowed (depth + 1) .unary nested)

/-- A routine enters its block, and goes on from what is read there. -/
theorem Nested.enters (nest : Nested allowed depth nested) (inner : Parser → Parser)
    (raises : ∀ cause : ReadError, inner (fun _ => .error cause) = fun _ => .error cause)
    (runs : Runs allowed (depth + 1) .unary nested →
      Runs allowed (depth + 1) task.inner (inner nested))
    (rest : List Token) (phase : Phase) {n : Nat} {k : Parsed rest.length → Except ReadError (Parsed n)}
    (more : ∀ r, Ends allowed ⟨.gave (task.wrap r.value), ⟨task, false⟩ :: below, depth, r.rest⟩
      below depth (k r)) :
    Ends allowed (State.enters ⟨phase, ⟨task, false⟩ :: below, depth, rest⟩ allowed.depth) below
      depth (inner nested rest >>= k) := by
  unfold State.enters
  rcases nest with ⟨limit, rfl⟩ | ⟨room, deeper⟩
  · rw [if_pos limit]
    have failed := congrFun (raises (.malformed (.nestedTooDeeply allowed.depth))) rest
    exact failed ▸ Ends.raises
  · rw [if_neg room]
    have called := runs deeper (⟨task, true⟩ :: below) rest
    exact (called.step rfl).block more

theorem Nested.operation (nest : Nested allowed depth nested) (other : task.inner = .operation .or none)
    (rest : List Token) (phase : Phase) {n : Nat}
    {k : Parsed rest.length → Except ReadError (Parsed n)}
    (more : ∀ r, Ends allowed ⟨.gave (task.wrap r.value), ⟨task, false⟩ :: below, depth, r.rest⟩
      below depth (k r)) :
    Ends allowed (State.enters ⟨phase, ⟨task, false⟩ :: below, depth, rest⟩ allowed.depth) below
      depth (Expr.operation nested rest >>= k) :=
  nest.enters Expr.operation (fun _ => rfl) (fun runs => other ▸ runs_operation runs) rest phase more

theorem primary_atom {t : Token} {rest : List Token} (plain : t.lexeme ≠ .punct .openParen) :
    primary nested (t :: rest) = atom t >>= fun e => .ok ⟨e, rest, Nat.lt_succ_self _⟩ := by
  obtain ⟨lexeme, pos⟩ := t
  cases lexeme with
  | punct p =>
    cases p with
    | openParen => exact absurd rfl plain
    | _ => rfl
  | _ => rfl

theorem runs_primary (nest : Nested allowed depth nested) :
    Runs allowed depth .primary (primary nested) := by
  intro below rest
  refine Ends.began ?_
  cases rest with
  | nil => exact Ends.raises
  | cons t rest =>
    simp only [begin]
    by_cases opens : t.lexeme = .punct .openParen
    · simp only [primary, opens, if_true]
      refine nest.operation rfl rest _ fun inner => Ends.resumed ?_
      simp only [resume]
      cases expect .closeParen inner.rest with
      | ok after => exact Ends.gave
      | error cause => exact Ends.raises
    · rw [if_neg opens, primary_atom opens]
      cases atom t with
      | ok e => exact Ends.gave
      | error cause => exact Ends.raises

theorem callEnd_closed (nested : Parser) (target : Expr) (name : Text) {ts : List Token}
    (closed : isNext .closeParen ts = true) :
    ∃ shorter, callEnd nested target name ts = .ok ⟨.call target name, ts.tail, shorter⟩ := by
  cases ts with
  | nil => cases closed
  | cons t rest =>
    have closes : t.lexeme = .punct .closeParen := by simpa [isNext] using closed
    exact ⟨by simp, by simp [callEnd, closes]⟩

theorem callEnd_argument {target : Expr} {name : Text} {ts : List Token}
    (other : ¬ isNext .closeParen ts = true) :
    callEnd nested target name ts = Expr.operation nested ts >>= fun argument =>
      expect .closeParen argument.rest >>= fun after =>
        .ok ⟨.callWith target name argument.value, after.val,
          Nat.lt_trans after.property argument.shorter⟩ := by
  cases ts with
  | nil => rfl
  | cons t rest =>
    have goesOn : t.lexeme ≠ .punct .closeParen := by simpa [isNext] using other
    simp [callEnd, goesOn]

/-- The rest of a call, from its method on. -/
theorem ends_call (nest : Nested allowed depth nested) (target : Expr) (name : Text) {u : Token}
    (opens : u.lexeme = .punct .openParen) (below : List Activation) (rest : List Token) :
    Ends allowed ⟨.going, ⟨.call target name, false⟩ :: below, depth, u :: rest⟩ below depth
      (if allowed.methods.contains name then callEnd nested target name rest
        else fail (.methodRefused name)) := by
  refine Ends.began ?_
  simp only [begin, expect, if_pos opens]
  split
  next listed =>
    by_cases closed : isNext .closeParen rest = true
    · obtain ⟨shorter, answer⟩ := callEnd_closed nested target name closed
      rw [if_pos closed, answer]
      exact Ends.gave
    · rw [if_neg closed, callEnd_argument closed]
      refine nest.operation rfl rest _ fun argument => Ends.resumed ?_
      simp only [resume]
      cases expect .closeParen argument.rest with
      | ok after => exact Ends.gave
      | error cause => exact Ends.raises
  next refused => exact Ends.raises

/-- A property or a call, from its name on. -/
theorem ends_afterDot (nest : Nested allowed depth nested) (e : Expr) (dot : Token)
    (rest : List Token) (lexeme : dot.lexeme = .punct .dot) :
    Ends allowed ⟨.gave e, ⟨.suffixed, false⟩ :: below, depth, dot :: rest⟩
      (⟨.suffixed, false⟩ :: below) depth (afterDot allowed nested e rest) := by
  refine Ends.resumed ?_
  simp only [resume, lexeme]
  cases rest with
  | nil => exact Ends.raised
  | cons t rest =>
    obtain ⟨lexeme, source, pos⟩ := t
    cases lexeme with
    | name n =>
      simp only [propertyName, afterDot]
      by_cases hidden : isHiddenProperty n = true
      · simp only [if_pos hidden]
        exact Ends.raised
      · simp only [if_neg hidden]
        cases rest with
        | nil => exact Ends.gave
        | cons u inner =>
          simp only [isNext, beq_iff_eq]
          by_cases opens : u.lexeme = .punct .openParen
          · have called := ends_call nest e n opens (⟨.suffixed, false⟩ :: below) inner
            simp only [if_pos opens]
            by_cases listed : allowed.methods.contains n = true
            · rw [if_pos listed] at called ⊢
              exact called.rebound
            · rw [if_neg listed] at called ⊢
              exact called
          · rw [if_neg opens, if_neg opens]
            exact Ends.gave
    | _ => exact Ends.raised

theorem ends_suffix (nest : Nested allowed depth nested) {e : Expr} {rest : List Token}
    {x : Except ReadError (Parsed rest.length)} (found : suffix? allowed nested e rest = some x) :
    Ends allowed ⟨.gave e, ⟨.suffixed, false⟩ :: below, depth, rest⟩
      (⟨.suffixed, false⟩ :: below) depth x := by
  cases rest with
  | nil => cases found
  | cons t rest =>
    obtain ⟨lexeme, source, pos⟩ := t
    cases lexeme with
    | punct p =>
      cases p with
      | dot =>
        cases found
        exact (ends_afterDot nest e _ rest rfl).rebound
      | openBracket =>
        refine Ends.resumed ?_
        cases e with
        | «variable» n =>
          cases found
          simp only [resume]
          cases afterBracket n rest with
          | ok indexed => exact Ends.gave
          | error cause => exact Ends.raised
        | _ =>
          cases found
          exact Ends.raised
      | _ => cases found
    | _ => cases found

theorem ends_suffixed {e : Expr} {rest : List Token}
    (none : suffix? allowed nested e rest = none) {shorter : rest.length < rest.length + 1} :
    Ends allowed ⟨.gave e, ⟨.suffixed, false⟩ :: below, depth, rest⟩ below depth
      (.ok (⟨e, rest, shorter⟩ : Parsed (rest.length + 1))) := by
  refine Ends.resumed ?_
  cases rest with
  | nil => exact Ends.gave
  | cons t rest =>
    obtain ⟨lexeme, source, pos⟩ := t
    cases lexeme with
    | punct p =>
      cases p with
      | dot => cases none
      | openBracket => cases e <;> cases none
      | _ => exact Ends.gave
    | _ => exact Ends.gave

theorem ends_suffixes (nest : Nested allowed depth nested) (e : Expr) (rest : List Token) :
    Ends allowed ⟨.gave e, ⟨.suffixed, false⟩ :: below, depth, rest⟩ below depth
      (suffixes allowed nested e rest) := by
  obtain ⟨n, size⟩ : ∃ n, rest.length = n := ⟨_, rfl⟩
  induction n using Nat.strongRecOn generalizing e rest with
  | ind n ih =>
    rw [suffixes]
    split
    next none => exact ends_suffixed none
    next x found =>
      refine (ends_suffix nest found).bind fun suffix => Ends.rebound ?_
      exact ih _ (size ▸ suffix.shorter) suffix.value suffix.rest rfl

theorem runs_suffixed (nest : Nested allowed depth nested) :
    Runs allowed depth .suffixed (suffixed allowed nested) := by
  intro below rest
  refine Ends.began ((runs_primary nest _ rest).bind fun target => ?_)
  exact (ends_suffixes nest target.value target.rest).rebound

theorem runs_unaryWith (nest : Nested allowed depth nested) :
    Runs allowed depth .unary (unaryWith allowed nested) := by
  intro below rest
  refine Ends.began ?_
  -- neither mark stands first: the operand is what its suffixes make of it
  have plain (ts : List Token) : Ends allowed
      ⟨.going, ⟨.suffixed, false⟩ :: ⟨.unary, false⟩ :: below, depth, ts⟩ below depth
      (suffixed allowed nested ts) := by
    rw [← bind_pure (suffixed allowed nested ts)]
    exact (runs_suffixed nest _ ts).bind fun r => Ends.gave.resumed
  cases rest with
  | nil => exact plain []
  | cons t rest =>
    obtain ⟨lexeme, pos⟩ := t
    cases lexeme with
    | punct p =>
      cases p with
      | not =>
        refine nest.enters id (fun _ => rfl) ?_ rest _ fun operand => Ends.gave.resumed
        exact fun deeper => deeper
      | minus =>
        simp only [begin, unaryWith]
        cases afterMinus rest with
        | ok number => exact Ends.gave
        | error cause => exact Ends.raises
      | _ => exact plain _
    | _ => exact plain _

/-- Every level has its parser, down to the limit. -/
theorem runs_unary (allowed : Allowance) (more depth : Nat)
    (levels : depth + more = allowed.depth.value.toNat) :
    Runs allowed depth .unary (unary allowed more) := by
  induction more generalizing depth with
  | zero => exact runs_unaryWith (.inl ⟨by omega, rfl⟩)
  | succ more ih => exact runs_unaryWith (.inr ⟨by omega, ih (depth + 1) (by omega)⟩)

end Runs

/-- A descent ends with the answer of the parser. -/
theorem reaches_parse (allowed : Allowance) (ts : List Token) :
    ∃ s, Reaches allowed (.start ts) s ∧ s.answer? = some (parse allowed ts) := by
  have runs := runs_operation (runs_unary allowed allowed.depth.value.toNat 0 (Nat.zero_add _))
  have run : Reaches allowed (.start ts)
    ⟨.going, [⟨.operation .or none, false⟩, ⟨.whole, false⟩], 0, ts⟩ := .single rfl
  have ends := (runs [⟨.whole, false⟩] ts).after run
  rw [parse]
  cases answer : operation (unary allowed allowed.depth.value.toNat) ts with
  | ok whole =>
    rw [answer] at ends
    obtain ⟨value, rest, shorter⟩ := whole
    cases rest with
    | nil => exact ⟨⟨.gave value, [], 0, []⟩, ends.tail rfl, rfl⟩
    | cons t rest =>
      refine ⟨⟨.raised (.malformed .trailingTokens), [], 0, t :: rest⟩, ?_, rfl⟩
      exact (ends.tail rfl).tail rfl
  | error cause =>
    rw [answer] at ends
    obtain ⟨rest, run⟩ := ends
    exact ⟨⟨.raised cause, [], 0, rest⟩, run.tail rfl, rfl⟩

/-- Steps with no more routines open than there is room for. -/
def ReachesWithin (allowed : Allowance) (room : Nat) : State → State → Prop :=
  Relation.ReflTransGen fun s s' => next allowed s = some s' ∧ s'.opened.length ≤ room

theorem ReachesWithin.of_reaches {allowed : Allowance} {s s' : State}
    (sound : Sound allowed s.opened s.depth) (run : Reaches allowed s s') :
    ReachesWithin allowed (7 * (allowed.depth.value.toNat + 1) + 1) s s' := by
  induction run with
  | refl => exact .refl
  | tail before step ih => exact ih.tail ⟨step, ((sound.reaches before).next step).length_le⟩

theorem next_none_of_answer {allowed : Allowance} {s : State} {answer : Except ReadError Expr}
    (answered : s.answer? = some answer) : next allowed s = none := by
  obtain ⟨phase, opened, depth, rest⟩ := s
  cases opened with
  | nil => rfl
  | cons a below => cases phase <;> cases answered

/-- A state without a next one is what comes last of every run. -/
theorem Reaches.last {allowed : Allowance} {s last last' : State} (run : Reaches allowed s last)
    (run' : Reaches allowed s last') (ended : next allowed last = none)
    (ended' : next allowed last' = none) : last = last' := by
  have stays {b c : State} (run : Reaches allowed b c) (ended : next allowed b = none) : b = c := by
    rcases run.cases_head with same | ⟨_, step, _⟩
    · exact same
    · rw [ended] at step
      cases step
  have unique : Relator.RightUnique fun s s' => next allowed s = some s' := by
    intro a b c first second
    exact Option.some.inj (first.symm.trans second)
  rcases run.total_of_right_unique unique run' with more | more
  · exact stays more ended
  · exact (stays more ended').symm

/-- The open routines of a descent are bounded by the limit alone. At every moment the operand
routines that are open are as many as the counter says, or one more; a routine that is closed, by a
value or by an error, leaves the counter as it was when the routine was called; and with the room
that the limit asks for, the descent comes to its end and answers as the parser does. -/
theorem descent_bounded (allowed : Allowance) (ts : List Token) :
    (∀ s, Reaches allowed (.start ts) s →
      (unaries s.opened = s.depth ∨ unaries s.opened = s.depth + 1) ∧
      unaries s.opened ≤ allowed.depth.value.toNat + 1 ∧
      s.opened.length ≤ 7 * (allowed.depth.value.toNat + 1) + 1 ∧
      ∀ task below s', s.phase = .going → s.opened = ⟨task, false⟩ :: below →
        Reaches allowed s s' → s'.opened = below → s'.depth = s.depth) ∧
    (∃ s, ReachesWithin allowed (7 * (allowed.depth.value.toNat + 1) + 1) (.start ts) s ∧
      s.answer? = some (parse allowed ts)) ∧
    ∀ s, Reaches allowed (.start ts) s → next allowed s = none →
      s.answer? = some (parse allowed ts) := by
  have start := Sound.start allowed
  obtain ⟨last, run, answer⟩ := reaches_parse allowed ts
  refine ⟨fun s run => ?_, ⟨last, .of_reaches start run, answer⟩, fun s run' ended => ?_⟩
  · have sound := Sound.reaches (s := .start ts) start run
    have unary := sound.unaries_eq
    refine ⟨unary, ?_, sound.length_le, ?_⟩
    · have limit := sound.limit
      omega
    · intro task below s' _ opened run closed
      have sound' := sound.reaches run
      rw [opened] at sound
      rw [closed] at sound'
      exact sound'.depth_eq (sound.closes rfl)
  · rw [← answer, run.last run' (next_none_of_answer answer) ended]

theorem reaches_of_iterate {allowed : Allowance} {n : Nat} {s s' : State}
    (steps : (Option.bind · (next allowed))^[n] (some s) = some s') : Reaches allowed s s' := by
  induction n generalizing s' with
  | zero =>
    cases steps
    exact .refl
  | succ n ih =>
    rw [Function.iterate_succ_apply'] at steps
    obtain ⟨middle, before, step⟩ := Option.bind_eq_some_iff.1 steps
    exact (ih before).tail step

/-- A negation in a negated group, where the limit is two: it is called at the limit, and closed by
the error that it raises. -/
theorem descent_bounded_negations :
    let allowed : Allowance := ⟨defaultMethods, .count 2⟩
    let negation : Token := ⟨.punct .not, ['!'], 0⟩
    ∃ s s' below, Reaches allowed (.start [negation, ⟨.punct .openParen, ['('], 1⟩, negation]) s ∧
      s.phase = .going ∧ s.opened = ⟨.unary, false⟩ :: below ∧ Reaches allowed s s' ∧
      s'.phase = .raised (.malformed (.nestedTooDeeply (.count 2))) ∧ s'.opened = below ∧
      s.depth = 2 ∧ s'.depth = s.depth ∧ unaries s.opened ≤ 3 ∧ s.opened.length ≤ 22 := by
  intro allowed negation
  let below : List Activation := [⟨.operation .relation none, false⟩,
    ⟨.operation .equality none, false⟩, ⟨.operation .and none, false⟩, ⟨.operation .or none, false⟩,
    ⟨.primary, true⟩, ⟨.suffixed, false⟩, ⟨.unary, false⟩, ⟨.unary, true⟩,
    ⟨.operation .relation none, false⟩, ⟨.operation .equality none, false⟩,
    ⟨.operation .and none, false⟩, ⟨.operation .or none, false⟩, ⟨.whole, false⟩]
  have called : Reaches allowed (.start [negation, ⟨.punct .openParen, ['('], 1⟩, negation])
      ⟨.going, ⟨.unary, false⟩ :: below, 2, [negation]⟩ := reaches_of_iterate (n := 15) rfl
  have closed : Reaches allowed ⟨.going, ⟨.unary, false⟩ :: below, 2, [negation]⟩
      ⟨.raised (.malformed (.nestedTooDeeply (.count 2))), below, 2, []⟩ :=
    reaches_of_iterate (n := 2) rfl
  obtain ⟨-, unary, length, counter⟩ := (descent_bounded allowed _).1 _ called
  exact ⟨_, _, below, called, rfl, rfl, closed, rfl, rfl, rfl,
    counter .unary below _ rfl rfl closed rfl, unary, length⟩

end BranchGate.Expr.Descent
