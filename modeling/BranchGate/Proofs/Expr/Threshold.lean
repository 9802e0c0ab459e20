import BranchGate.Proofs.Expr.Descent
import BranchGate.Proofs.Expr.InStep
import BranchGate.Proofs.Expr.Nesting

/-! The limit on nesting is a threshold. Descents under two limits go the same way until one of them
is refused a block; only an opening parenthesis or a negation asks for one, so as many levels as there
are of these are never refused. -/
namespace BranchGate.Expr

/-- How many tokens may open a level. -/
def openers (ts : List Token) : Nat :=
  (lexemes ts).count (.punct .openParen) + (lexemes ts).count (.punct .not)

theorem openers_le {ts ts' : List Token} (suffix : ts' <:+ ts) : openers ts' ≤ openers ts := by
  have inner := suffix.sublist.map Token.lexeme
  exact Nat.add_le_add (inner.count_le _) (inner.count_le _)

theorem openers_cons {t : Token} {rest : List Token}
    (opens : t.lexeme = .punct .openParen ∨ t.lexeme = .punct .not) :
    openers (t :: rest) = openers rest + 1 := by
  simp only [openers, lexemes, List.map_cons, List.count_cons]
  rcases opens with parenthesis | negation
  · rw [parenthesis, if_pos (by decide), if_neg (by decide)]
    omega
  · rw [negation, if_neg (by decide), if_pos (by decide)]
    omega

namespace Descent

section Suffix

variable {ts : List Token}

theorem expect_taken {p : Punct} {after : { rest : List Token // rest.length < ts.length }}
    (read : expect p ts = .ok after) : ∃ t, t.lexeme = .punct p ∧ t :: after.val = ts := by
  cases ts with
  | nil => cases read
  | cons t rest =>
    rw [expect] at read
    split at read
    next same =>
      cases read
      exact ⟨t, same, rfl⟩
    next => cases read

theorem afterMinus_suffix {number : Parsed ts.length} (read : afterMinus ts = .ok number) :
    number.rest <:+ ts := by
  cases ts with
  | nil => cases read
  | cons t rest =>
    rw [afterMinus] at read
    split at read
    · cases read
      exact List.suffix_cons t rest
    · cases read
      exact List.suffix_cons t rest
    · cases read

theorem afterBracket_suffix {n : Nat} {indexed : Parsed ts.length}
    (read : afterBracket n ts = .ok indexed) : indexed.rest <:+ ts := by
  cases ts with
  | nil => cases read
  | cons t rest =>
    rw [afterBracket] at read
    split at read
    next => cases read
    next =>
      obtain ⟨after, closed, read⟩ := bind_eq_ok.1 read
      obtain ⟨closing, _, taken⟩ := expect_taken closed
      have inner : after.val <:+ rest := ⟨[closing], taken⟩
      cases read
      exact inner.trans (List.suffix_cons t rest)

theorem propertyName_suffix {name : Text} {after : List Token}
    (read : propertyName ts = .ok (name, after)) : after <:+ ts := by
  cases ts with
  | nil => cases read
  | cons t tail =>
    rw [propertyName] at read
    split at read
    · split at read
      · cases read
      · cases read
        exact List.suffix_cons t after
    · cases read

end Suffix

/-- What a step comes to under each limit: it opens no level, or it has taken an opening token and
asks for one more level. -/
inductive Moves (s : State) (step : Limit → State) : Prop
  | plain (s' : State) : (∀ limit, step limit = s') → s'.depth ≤ s.depth → s'.rest <:+ s.rest →
      Moves s step
  | asks (s' : State) : (∀ limit, step limit = s'.enters limit) → s'.depth = s.depth →
      openers s'.rest < openers s.rest → Moves s step

section Step

variable {s : State} {methods : List Text}

theorem moves_begin (s : State) (task : Task) :
    Moves s fun limit => begin ⟨methods, limit⟩ s task := by
  have stays (s' : State) (depth : s'.depth = s.depth) (rest : s'.rest <:+ s.rest) :
      Moves s fun _ => s' := .plain s' (fun _ => rfl) (Nat.le_of_eq depth) rest
  cases task with
  | whole | operation | suffixed => exact stays _ rfl (List.suffix_refl _)
  | unary =>
    simp only [begin]
    split
    next => exact stays _ rfl (List.suffix_refl _)
    next t rest shape =>
      split
      next negates =>
        refine .asks { s with rest } (fun _ => rfl) rfl ?_
        rw [shape, openers_cons (.inr negates)]
        exact Nat.lt_succ_self _
      next =>
        split
        next number read =>
          refine stays _ rfl ?_
          rw [shape]
          exact (afterMinus_suffix read).trans (List.suffix_cons t rest)
        next => exact stays _ rfl (List.suffix_refl _)
      next => exact stays _ rfl (List.suffix_refl _)
  | call target name =>
    simp only [begin]
    split
    next =>
      split
      next after opened =>
        obtain ⟨t, isOpen, taken⟩ := expect_taken opened
        split
        next => exact stays _ rfl ((List.tail_suffix _).trans ⟨[t], taken⟩)
        next =>
          refine .asks { s with rest := after } (fun _ => rfl) rfl ?_
          have more : openers (t :: after.val) = openers after.val + 1 := openers_cons (.inl isOpen)
          rw [taken] at more
          exact Nat.lt_of_succ_le (Nat.le_of_eq more.symm)
      next => exact stays _ rfl (List.suffix_refl _)
    next => exact stays _ rfl (List.suffix_refl _)
  | primary =>
    simp only [begin]
    split
    next => exact stays _ rfl (List.suffix_refl _)
    next t rest shape =>
      split
      next isOpen =>
        refine .asks { s with rest } (fun _ => rfl) rfl ?_
        rw [shape, openers_cons (.inl isOpen)]
        exact Nat.lt_succ_self _
      next =>
        split
        next =>
          refine stays _ rfl ?_
          rw [shape]
          exact List.suffix_cons t rest
        next => exact stays _ rfl (List.suffix_refl _)

theorem resume_spends (s : State) (e : Expr) (task : Task) :
    (resume s e task).depth = s.depth ∧ (resume s e task).rest <:+ s.rest := by
  have closes {p : Punct} {after : { rest : List Token // rest.length < s.rest.length }}
      (read : expect p s.rest = .ok after) : after.val <:+ s.rest := by
    obtain ⟨t, _, taken⟩ := expect_taken read
    exact ⟨[t], taken⟩
  cases task with
  | unary => exact ⟨rfl, List.suffix_refl _⟩
  | whole =>
    simp only [resume]
    split
    · exact ⟨rfl, List.suffix_refl _⟩
    · exact ⟨rfl, List.suffix_refl _⟩
  | operation level left =>
    simp only [resume]
    split
    next => exact ⟨rfl, List.suffix_refl _⟩
    next t rest shape =>
      split
      · exact ⟨rfl, List.suffix_refl _⟩
      · exact ⟨rfl, shape ▸ List.suffix_cons t rest⟩
  | suffixed =>
    simp only [resume]
    split
    next => exact ⟨rfl, List.suffix_refl _⟩
    next t rest shape =>
      have inner {after : List Token} (suffix : after <:+ rest) : after <:+ s.rest :=
        shape ▸ suffix.trans (List.suffix_cons t rest)
      split
      · split
        next read =>
          split
          · exact ⟨rfl, inner (propertyName_suffix read)⟩
          · exact ⟨rfl, inner (propertyName_suffix read)⟩
        next => exact ⟨rfl, List.suffix_refl _⟩
      · split
        · split
          next read => exact ⟨rfl, inner (afterBracket_suffix read)⟩
          next => exact ⟨rfl, List.suffix_refl _⟩
        · exact ⟨rfl, List.suffix_refl _⟩
      · exact ⟨rfl, List.suffix_refl _⟩
  | call | primary =>
    simp only [resume]
    split
    next read => exact ⟨rfl, closes read⟩
    next => exact ⟨rfl, List.suffix_refl _⟩

/-- Every step, seen under all limits at once. -/
theorem moves_next (methods : List Text) {a : Activation} {below : List Activation}
    (opened : s.opened = a :: below) :
    ∃ step, (∀ limit, next ⟨methods, limit⟩ s = some (step limit)) ∧ Moves s step := by
  obtain ⟨phase, _, depth, rest⟩ := s
  obtain ⟨task, inBlock⟩ := a
  subst opened
  have leaves (phase' : Phase) : Moves ⟨phase, ⟨task, inBlock⟩ :: below, depth, rest⟩
      fun _ => State.leaves ⟨phase, ⟨task, inBlock⟩ :: below, depth, rest⟩ phase' :=
    .plain _ (fun _ => rfl) (Nat.sub_le depth 1) (List.suffix_refl rest)
  cases phase with
  | going =>
    cases inBlock with
    | false => exact ⟨_, fun _ => rfl, moves_begin _ task⟩
    | true => exact ⟨_, fun _ => rfl, .plain _ (fun _ => rfl) (Nat.le_refl _) (List.suffix_refl _)⟩
  | gave e =>
    cases inBlock with
    | false =>
      obtain ⟨counter, suffix⟩ := resume_spends ⟨.gave e, ⟨task, false⟩ :: below, depth, rest⟩ e task
      exact ⟨_, fun _ => rfl, .plain _ (fun _ => rfl) (Nat.le_of_eq counter) suffix⟩
    | true => exact ⟨_, fun _ => rfl, leaves _⟩
  | raised cause =>
    cases inBlock with
    | false => exact ⟨_, fun _ => rfl, .plain _ (fun _ => rfl) (Nat.le_refl _) (List.suffix_refl _)⟩
    | true => exact ⟨_, fun _ => rfl, leaves _⟩

end Step

/-- An error is what the descent answers, whatever is open. -/
theorem reaches_raised (allowed : Allowance) (cause : ReadError) (opened : List Activation)
    (depth : Nat) (rest : List Token) :
    ∃ s, Reaches allowed ⟨.raised cause, opened, depth, rest⟩ s ∧
      s.answer? = some (.error cause) := by
  induction opened generalizing depth with
  | nil => exact ⟨_, .refl, rfl⟩
  | cons a below ih =>
    obtain ⟨task, inBlock⟩ := a
    cases inBlock with
    | false =>
      obtain ⟨s, run, answer⟩ := ih depth
      exact ⟨s, .head rfl run, answer⟩
    | true =>
      obtain ⟨s, run, answer⟩ := ih (depth - 1)
      exact ⟨s, .head rfl (.head rfl run), answer⟩

theorem enters_within {s : State} {limit : Limit} (room : s.depth < limit.value) :
    (s.enters limit).depth = s.depth + 1 ∧ (s.enters limit).rest = s.rest ∧
      ∀ limit' : Limit, s.depth < limit'.value → s.enters limit' = s.enters limit := by
  have enters {l : Limit} (room : s.depth < l.value) : s.enters l =
      { s with
        phase := .going
        opened := s.opened.modifyHead fun a => { a with inBlock := true }
        depth := s.depth + 1 } := if_neg (Int.not_le.2 room)
  exact ⟨by rw [enters room], by rw [enters room], fun _ room' => by rw [enters room, enters room']⟩

/-- A run that takes `d` levels at its deepest: under a limit that has them it goes the same way, and
under a lower one it is refused a block. Limits below the levels already open are left aside. -/
structure Threshold (methods : List Text) (s last : State) (d : Nat) : Prop where
  above : ∀ limit : Limit, s.depth ≤ limit.value → d ≤ limit.value →
    Reaches ⟨methods, limit⟩ s last
  below : ∀ limit : Limit, s.depth ≤ limit.value → limit.value < d →
    ∃ refused, Reaches ⟨methods, limit⟩ s refused ∧
      refused.answer? = some (fail (.nestedTooDeeply limit))

section Threshold

variable {methods : List Text} {s s' last : State} {d : Nat}

theorem Threshold.plain (threshold : Threshold methods s' last d)
    (step : ∀ limit, next ⟨methods, limit⟩ s = some s') (depth : s'.depth ≤ s.depth) :
    Threshold methods s last d where
  above limit _ high := .head (step limit) (threshold.above limit (by omega) high)
  below limit _ small := by
    obtain ⟨refused, run, answer⟩ := threshold.below limit (by omega) small
    exact ⟨refused, .head (step limit) run, answer⟩

theorem Threshold.asks {room : Limit} (threshold : Threshold methods (s'.enters room) last d)
    (step : ∀ limit, next ⟨methods, limit⟩ s = some (s'.enters limit)) (depth : s'.depth = s.depth)
    (enough : s'.depth < room.value) : Threshold methods s last (max d (s.depth + 1)) := by
  obtain ⟨deeper, _, alike⟩ := enters_within enough
  constructor
  · intro limit _ high
    have run := threshold.above limit (by omega) (by omega)
    rw [← alike limit (by omega)] at run
    exact .head (step limit) run
  · intro limit _ small
    have step := step limit
    by_cases reached : limit.value ≤ s'.depth
    · rw [State.enters, if_pos reached] at step
      obtain ⟨refused, run, answer⟩ := reaches_raised ⟨methods, limit⟩
        (.malformed (.nestedTooDeeply limit)) s'.opened s'.depth s'.rest
      exact ⟨refused, .head step run, answer⟩
    · obtain ⟨refused, run, answer⟩ := threshold.below limit (by omega) (by omega)
      rw [← alike limit (by omega)] at run
      exact ⟨refused, .head step run, answer⟩

/-- A limit that has a level for each opening token left refuses nothing, so its run shows how many
levels are taken. -/
theorem threshold_of_reaches {room : Nat} (run : Reaches ⟨methods, .count room⟩ s last)
    (enough : s.depth + openers s.rest ≤ room) : ∃ d ≤ room, Threshold methods s last d := by
  induction run using Relation.ReflTransGen.head_induction_on with
  | refl => exact ⟨0, Nat.zero_le _, fun _ _ _ => .refl, fun limit low high => by omega⟩
  | @head s s' step _ ih =>
    cases opened : s.opened with
    | nil => simp [next, opened] at step
    | cons a below =>
      obtain ⟨moved, same, moves⟩ := moves_next methods opened
      rw [same] at step
      cases step
      cases moves with
      | plain s' moved depth suffix =>
        have fewer := openers_le suffix
        rw [moved] at ih
        obtain ⟨d, low, threshold⟩ := ih (by omega)
        exact ⟨d, low, threshold.plain (fun limit => by rw [same, moved]) depth⟩
      | asks s' moved depth fewer =>
        have level : (s'.depth : Int) < (Limit.count room).value := by
          simp only [Limit.value]
          omega
        obtain ⟨deeper, rest, _⟩ := enters_within level
        rw [moved] at ih
        obtain ⟨d, low, threshold⟩ := ih (by rw [deeper, rest]; omega)
        exact ⟨max d (s.depth + 1), by omega,
          threshold.asks (fun limit => by rw [same, moved]) depth level⟩

end Threshold

theorem parse_of_reaches {allowed : Allowance} {ts : List Token} {s : State}
    {answer : Except ReadError Expr} (run : Reaches allowed (.start ts) s)
    (answered : s.answer? = some answer) : parse allowed ts = answer := by
  obtain ⟨last, run', answered'⟩ := reaches_parse allowed ts
  have same := run.last run' (next_none_of_answer answered) (next_none_of_answer answered')
  rw [← same, answered] at answered'
  exact (Option.some.inj answered').symm

end Descent

/-- Each list of tokens has a number of levels, no more than it has opening tokens, from which on it
is answered the same way, and below which it is refused for its nesting. An answer that is a tree
has the nesting that it is derived with. -/
theorem parse_threshold (methods : List Text) (ts : List Token) :
    ∃ d ≤ openers ts, ∃ outcome,
      (∀ limit : Limit, d ≤ limit.value → parse ⟨methods, limit⟩ ts = outcome) ∧
      (∀ limit : Limit, 0 ≤ limit.value → limit.value < d → ∃ cause : SyntaxError,
        parse ⟨methods, limit⟩ ts = .error (.malformed cause) ∧
        cause.message = "expression is nested too deeply (max " ++ limit.text ++ " levels)") ∧
      ∀ e, outcome = .ok e →
        DerivesAll methods (lexemes ts) e d ∧ nesting (lexemes ts) = d := by
  obtain ⟨last, run, answer⟩ := Descent.reaches_parse ⟨methods, .count (openers ts)⟩ ts
  have enough : (Descent.State.start ts).depth + openers ts ≤ openers ts :=
    Nat.le_of_eq (Nat.zero_add _)
  obtain ⟨d, low, threshold⟩ := Descent.threshold_of_reaches run enough
  have refused (limit : Limit) (zero : 0 ≤ limit.value) (small : limit.value < d) :
      parse ⟨methods, limit⟩ ts = fail (.nestedTooDeeply limit) := by
    obtain ⟨s, run, answer⟩ := threshold.below limit zero small
    exact Descent.parse_of_reaches run answer
  have same (limit : Limit) (high : d ≤ limit.value) : parse ⟨methods, limit⟩ ts =
      parse ⟨methods, .count (openers ts)⟩ ts := by
    have zero : 0 ≤ limit.value := Int.le_trans (Int.natCast_nonneg d) high
    exact Descent.parse_of_reaches (threshold.above limit zero high) answer
  refine ⟨d, low, _, same, ?_, fun e read => ?_⟩
  · exact fun limit zero small => ⟨_, refused limit zero small, rfl⟩
  · rw [← same (.count d) (Int.le_refl _)] at read
    obtain ⟨d', low', derived⟩ := derives_of_parse read
    have low' : d' ≤ d := low'
    -- The nesting of the derivation is a limit under which the parser answers, so it is no lower.
    have exact : d' = d := by
      refine Nat.le_antisymm low' (Nat.le_of_not_lt fun small => ?_)
      have read' : parse ⟨methods, .count d'⟩ ts = .ok e :=
        parse_of_derives (short_of_parse read) (Nat.le_refl d') derived
      rw [refused (.count d') (Int.natCast_nonneg d') (Int.ofNat_lt.2 small)] at read'
      cases read'
    exact ⟨exact ▸ derived, exact ▸ nesting_of_derives derived⟩

/-- Two groups side by side need one level. -/
theorem parse_threshold_siblings :
    let ts : List Token := [
      ⟨.punct .openParen, ['('], 0⟩, ⟨.name ("__v0" : String).toList, ("__v0" : String).toList, 1⟩,
      ⟨.punct .closeParen, [')'], 5⟩, ⟨.punct .and, ("&&" : String).toList, 7⟩,
      ⟨.punct .openParen, ['('], 10⟩, ⟨.name ("__v1" : String).toList, ("__v1" : String).toList, 11⟩,
      ⟨.punct .closeParen, [')'], 15⟩]
    openers ts = 2 ∧
      (∀ limit : Limit, 1 ≤ limit.value → parse ⟨defaultMethods, limit⟩ ts =
        .ok (.binary .and (.variable 0) (.variable 1))) ∧
      ∃ cause : SyntaxError, parse ⟨defaultMethods, .count 0⟩ ts = .error (.malformed cause) ∧
        cause.message = ("expression is nested too deeply (max 0 levels)" : String).toList := by
  intro ts
  have count : openers ts = 2 := by decide
  obtain ⟨d, low, outcome, above, below, nests⟩ := parse_threshold defaultMethods ts
  have read : parse ⟨defaultMethods, .count 2⟩ ts = .ok (.binary .and (.variable 0) (.variable 1)) :=
    eq_ok_of_toOption (by decide +kernel)
  have same := above (.count 2) (Int.ofNat_le.2 (Nat.le_trans low (Nat.le_of_eq count)))
  obtain ⟨_, levels⟩ := nests _ (same.symm.trans read)
  have one : nesting (lexemes ts) = 1 := by decide
  rw [← levels, one] at above below
  exact ⟨count, fun limit high => (above limit high).trans (same.symm.trans read),
    below (.count 0) (by decide) (by decide)⟩

end BranchGate.Expr
