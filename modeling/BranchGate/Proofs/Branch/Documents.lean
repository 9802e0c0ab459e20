import BranchGate.Branch.Spec
import BranchGate.Proofs.Gate.Steps
import BranchGate.Proofs.Lists

/-! Which data make a condition or a spec, and what they make. What a condition is shown as makes
the same condition again, and what a spec is shown as makes the same spec if it is complete. -/
namespace BranchGate

namespace Issue

variable {α : Type} {fields : Fields Value} {name : Text}

theorem required_eq_ok {read : Value → Except IssueCause α} {a : α} :
    required fields name read = .ok a ↔ ∃ v, fields.get? name = some v ∧ read v = .ok a := by
  unfold required
  split
  next missing => simp [missing]
  next v given => simp [given, mapError_eq_ok]

/-- A text that may be missing is read as what it is shown as. -/
theorem optionalText_eq_ok {text : Option Text} : optionalText fields name = .ok text ↔
    (fields.get? name).getD .null = Value.ofOption .text text := by
  unfold optionalText
  cases fields.get? name with
  | none => cases text <;> simp [Value.ofOption]
  | some v => cases v <;> cases text <;> simp [Value.ofOption]

end Issue

namespace BranchCondition

theorem readNonBlank_eq_ok {blank : IssueCause} {v : Value} {t : Text} :
    readNonBlank blank v = .ok t ↔ v = .text t ∧ Text.allBlank t = false := by
  cases v with
  | text t' =>
    rw [readNonBlank, Value.text.injEq]
    split
    next empty =>
      refine ⟨nofun, ?_⟩
      rintro ⟨rfl, filled⟩
      cases empty.symm.trans filled
    next filled =>
      refine ⟨?_, fun ⟨same, _⟩ => congrArg Except.ok same⟩
      rintro ⟨⟩
      exact ⟨rfl, eq_false_of_ne_true filled⟩
  | _ => simp [readNonBlank]

theorem readExpr_eq_ok {v : Value} {x : Text} : readExpr v = .ok x ↔
    ∃ t e, v = .text t ∧ Gate.compile Config.default (.text t) = .ok e ∧ Text.trim t = x := by
  cases v with
  | text t =>
    rw [readExpr]
    cases answer : Gate.compile Config.default (.text t) with
    | ok e => simp [answer]
    | error cause => simp [answer]
  | _ => simp [readExpr]

/-- What the fields of a condition have to be like. -/
structure Made (fields : Fields Value) (c : BranchCondition) : Prop where
  expr : ∃ t e, fields.get? exprField = some (.text t) ∧
    Gate.compile Config.default (.text t) = .ok e ∧ Text.trim t = c.expr
  target : fields.get? targetField = some (.text c.target)
  filled : Text.allBlank c.target = false
  label : (fields.get? labelField).getD .null = Value.ofOption .text c.label
  closed : Issue.extras [exprField, targetField, labelField] fields = []

theorem ofFields_eq_ok {fields : Fields Value} {c : BranchCondition} :
    ofFields fields = .ok c ↔ Made fields c := by
  unfold ofFields
  constructor
  · intro made
    simp only at made
    split at made
    next expr target label closed =>
      cases made
      obtain ⟨v, given, read⟩ := Issue.required_eq_ok.1 expr
      obtain ⟨t, e, rfl, compiled, trimmed⟩ := readExpr_eq_ok.1 read
      obtain ⟨_, given', read'⟩ := Issue.required_eq_ok.1 target
      obtain ⟨rfl, filled⟩ := readNonBlank_eq_ok.1 read'
      exact ⟨⟨t, e, given, compiled, trimmed⟩, given', filled, Issue.optionalText_eq_ok.1 label,
        closed⟩
    next => cases made
  · rintro ⟨⟨t, e, given, compiled, trimmed⟩, given', filled, label, closed⟩
    simp only [Issue.required_eq_ok.2 ⟨_, given, readExpr_eq_ok.2 ⟨t, e, rfl, compiled, trimmed⟩⟩,
      Issue.required_eq_ok.2 ⟨_, given', readNonBlank_eq_ok.2 ⟨rfl, filled⟩⟩,
      Issue.optionalText_eq_ok.2 label, closed]

theorem ofValue_eq_ok {d : Value} {c : BranchCondition} :
    ofValue d = .ok c ↔ ∃ fields, d = .record fields ∧ Made fields c := by
  cases d with
  | record fields => simp [ofValue, ofFields_eq_ok]
  | _ => simp [ofValue]

/-- A stored condition: its expression is trimmed and passes the gate, and its target has
content. -/
structure Sound (c : BranchCondition) : Prop where
  trimmed : Text.trim c.expr = c.expr
  compiles : ∃ e, c.compile = .ok e
  target : Text.allBlank c.target = false

theorem Made.sound {fields : Fields Value} {c : BranchCondition} (made : Made fields c) :
    c.Sound := by
  obtain ⟨⟨t, e, _, compiled, trimmed⟩, _, filled, _⟩ := made
  refine ⟨?_, ⟨e, ?_⟩, filled⟩
  · rw [← trimmed, Text.trim_trim]
  · rw [compile, ← trimmed, Gate.compile_trim, compiled]

/-- What a condition keeps of the text it was made from: the text itself, trimmed, which is valid
and has the same tree. -/
structure Keeps (c : BranchCondition) (t : Text) : Prop where
  expr : c.expr = Text.trim t
  trimmed : Text.trim c.expr = c.expr
  valid : Gate.validate Config.default (.text c.expr) = .ok .valid
  tree : ∃ e, c.compile = .ok e ∧ Gate.compile Config.default (.text t) = .ok e

theorem Made.keeps {fields : Fields Value} {c : BranchCondition} (made : Made fields c) :
    ∃ t, fields.get? exprField = some (.text t) ∧ c.Keeps t := by
  obtain ⟨t, e, given, compiled, trimmed⟩ := made.expr
  have compiled' : Gate.compile Config.default (.text c.expr) = .ok e := by
    rw [← trimmed, Gate.compile_trim, compiled]
  exact ⟨t, given, trimmed.symm, made.sound.trimmed, Gate.validate_eq_valid.2 ⟨e, compiled'⟩, e,
    compiled', compiled⟩

/-- What a condition is shown as makes it again. -/
theorem ofValue_toValue {c : BranchCondition} (sound : c.Sound) : ofValue c.toValue = .ok c := by
  obtain ⟨e, compiled⟩ := sound.compiles
  exact ofValue_eq_ok.2 ⟨_, rfl, ⟨⟨c.expr, e, rfl, compiled, sound.trimmed⟩, rfl, sound.target, rfl,
    rfl⟩⟩

end BranchCondition

namespace BranchSpec

theorem readConditions_eq_ok {i : Nat} {items : List Value} {cs : List BranchCondition} :
    readConditions i items = .ok cs ↔
      List.Forall₂ (fun d c => BranchCondition.ofValue d = .ok c) items cs := by
  induction items generalizing i cs with
  | nil => simp [readConditions, eq_comm]
  | cons d items ih =>
    rw [readConditions, List.forall₂_cons_left_iff]
    split
    next c more read others =>
      rw [mapError_eq_ok] at read
      constructor
      · rintro ⟨⟩
        exact ⟨c, more, read, ih.1 others, rfl⟩
      · rintro ⟨c', more', read', others', rfl⟩
        cases read.symm.trans read'
        cases others.symm.trans (ih.2 others')
        rfl
    next misses =>
      refine ⟨nofun, ?_⟩
      rintro ⟨c, more, read, others, rfl⟩
      exact absurd (ih.2 others) (misses c more (mapError_eq_ok.2 read))

theorem conditionsOf_eq_ok {fields : Fields Value} {cs : List BranchCondition} :
    conditionsOf fields = .ok cs ↔ fields.get? conditionsField = none ∧ cs = [] ∨
      ∃ items, fields.get? conditionsField = some (.list items) ∧
        List.Forall₂ (fun d c => BranchCondition.ofValue d = .ok c) items cs := by
  unfold conditionsOf
  cases fields.get? conditionsField with
  | none => simp [eq_comm]
  | some v => cases v <;> simp [readConditions_eq_ok]

theorem whole_eq_ok {node : Text} {cs : List BranchCondition} {fallback : Option Text}
    {s : BranchSpec} : whole node cs fallback = .ok s ↔ cs ≠ [] ∧
      fallback.any Text.allBlank = false ∧ s = ⟨.text node, cs, Value.ofOption .text fallback⟩ := by
  unfold whole
  cases cs with
  | nil => simp
  | cons c cs => cases fallback.any Text.allBlank <;> simp [eq_comm]

/-- What the fields of a spec have to be like. -/
structure Made (fields : Fields Value) (s : BranchSpec) : Prop where
  node : ∃ t, fields.get? nodeField = some (.text t) ∧ Text.allBlank t = false ∧ s.nodeId = .text t
  conditions : conditionsOf fields = .ok s.conditions
  filled : s.conditions ≠ []
  fallback : ∃ d, (fields.get? defaultField).getD .null = Value.ofOption .text d ∧
    d.any Text.allBlank = false ∧ s.defaultTarget = Value.ofOption .text d
  closed : Issue.extras [nodeField, conditionsField, defaultField] fields = []

theorem ofFields_eq_ok {fields : Fields Value} {s : BranchSpec} :
    ofFields fields = .ok s ↔ Made fields s := by
  unfold ofFields
  constructor
  · intro made
    simp only at made
    split at made
    next node conditions fallback closed =>
      obtain ⟨_, given, read⟩ := Issue.required_eq_ok.1 node
      obtain ⟨rfl, content⟩ := BranchCondition.readNonBlank_eq_ok.1 read
      obtain ⟨filled, nonBlank, rfl⟩ := whole_eq_ok.1 made
      exact ⟨⟨_, given, content, rfl⟩, conditions, filled,
        ⟨_, Issue.optionalText_eq_ok.1 fallback, nonBlank, rfl⟩, closed⟩
    next => cases made
  · rintro ⟨⟨t, given, content, isNode⟩, conditions, filled, ⟨d, given', nonBlank, isDefault⟩,
      closed⟩
    have node : Issue.required fields nodeField (BranchCondition.readNonBlank .blankNode) = .ok t :=
      Issue.required_eq_ok.2 ⟨_, given, BranchCondition.readNonBlank_eq_ok.2 ⟨rfl, content⟩⟩
    simp only [node, conditions, Issue.optionalText_eq_ok.2 given', closed]
    refine whole_eq_ok.2 ⟨filled, nonBlank, ?_⟩
    rw [← isNode, ← isDefault]

theorem ofValue_eq_ok {data : Value} {s : BranchSpec} :
    ofValue data = .ok s ↔ ∃ fields, data = .record fields ∧ Made fields s := by
  cases data with
  | record fields => simp [ofValue, ofFields_eq_ok]
  | _ => simp [ofValue]

/-- A spec that passes as a whole: its node is a text with content, it has a condition, and its
default is null or a text with content. -/
structure Complete (s : BranchSpec) : Prop where
  node : ∃ t, s.nodeId = .text t ∧ Text.allBlank t = false
  conditions : s.conditions ≠ []
  fallback : s.defaultTarget = .null ∨ ∃ t, s.defaultTarget = .text t ∧ Text.allBlank t = false

theorem fallback_iff {v : Value} : (v = .null ∨ ∃ t, v = .text t ∧ Text.allBlank t = false) ↔
    ∃ d : Option Text, v = Value.ofOption .text d ∧ d.any Text.allBlank = false := by
  constructor
  · rintro (rfl | ⟨t, rfl, content⟩)
    · exact ⟨none, rfl, rfl⟩
    · exact ⟨some t, rfl, content⟩
  · rintro ⟨_ | t, rfl, content⟩
    · exact .inl rfl
    · exact .inr ⟨t, rfl, content⟩

theorem Made.complete {fields : Fields Value} {s : BranchSpec} (made : Made fields s) :
    s.Complete := by
  obtain ⟨⟨t, _, content, isNode⟩, _, filled, ⟨d, _, nonBlank, isDefault⟩, _⟩ := made
  exact ⟨⟨t, isNode, content⟩, filled, fallback_iff.2 ⟨d, isDefault, nonBlank⟩⟩

/-- What a spec is shown as makes a spec exactly if it is complete, and then the same one. -/
theorem revalidate_eq_ok {s s' : BranchSpec} (sound : ∀ c ∈ s.conditions, c.Sound) :
    s.revalidate = .ok s' ↔ s.Complete ∧ s' = s := by
  have shown : readConditions 0 (s.conditions.map (·.toValue)) = .ok s.conditions := by
    rw [readConditions_eq_ok, List.forall₂_map_left_iff, List.forall₂_same]
    exact fun c member => BranchCondition.ofValue_toValue (sound c member)
  rw [revalidate, mapError_eq_ok, toValue, ofValue, ofFields_eq_ok]
  constructor
  · rintro ⟨⟨t, given, content, isNode⟩, conditions, filled, ⟨d, given', nonBlank, isDefault⟩, _⟩
    have node : s.nodeId = .text t := Option.some.inj given
    have same : s.conditions = s'.conditions := Except.ok.inj (shown.symm.trans conditions)
    have default : s.defaultTarget = Value.ofOption .text d := given'
    refine ⟨⟨⟨t, node, content⟩, same ▸ filled, fallback_iff.2 ⟨d, default, nonBlank⟩⟩, ?_⟩
    cases s
    cases s'
    simp_all
  · rintro ⟨⟨⟨t, isNode, content⟩, filled, fallback⟩, rfl⟩
    obtain ⟨d, isDefault, nonBlank⟩ := fallback_iff.1 fallback
    exact ⟨⟨t, congrArg some isNode, content, isNode⟩, shown, filled, ⟨d, isDefault, nonBlank, isDefault⟩, rfl⟩

end BranchSpec
end BranchGate
