import BranchGate.Proofs.Branch.Documents
import BranchGate.Proofs.Expr.Written
import BranchGate.Proofs.Gate.Limits

/-! The names that conditions use, read off their tokens. A tree that passes the gate uses the
variables and the methods that its text is written with and no others, and a spec tells the
variables of its conditions. -/
namespace BranchGate

/-- Some token of the text, trimmed, is a variable of this number. -/
def WritesVariable (t : Text) (n : Nat) : Prop :=
  ∃ ts, Token.lex (Text.trim t) = .ok ts ∧ ∃ tok ∈ ts, ∃ digits,
    tok.lexeme = .name ('_' :: '_' :: 'v' :: digits) ∧ Token.IsDigits digits ∧
      Text.toNat digits = n

/-- Some tokens of the text, trimmed, are a dot, this name and an opening parenthesis. -/
def WritesCall (t name : Text) : Prop :=
  ∃ ts, Token.lex (Text.trim t) = .ok ts ∧
    [.punct .dot, .name name, .punct .openParen] <:+: ts.map Token.lexeme

namespace Gate

variable {config : Config} {t : Text} {e : Expr}

theorem writesVariable_iff (accepted : compile config (.text t) = .ok e) {n : Nat} :
    n ∈ e.usedVariables ↔ WritesVariable t n := by
  obtain ⟨ts, d, lexed, _, _, derived⟩ := derives_of_compileTrimmed (compile_text_eq_ok.1 accepted)
  rw [Expr.mem_usedVariables, ← Expr.variables_of_derives derived, List.mem_filterMap]
  simp only [List.mem_map, Lexeme.numbered?_eq_some, exists_exists_and_eq_and]
  constructor
  · exact fun written => ⟨ts, lexed, written⟩
  · rintro ⟨ts', lexed', written⟩
    cases lexed.symm.trans lexed'
    exact written

theorem writesCall_iff (accepted : compile config (.text t) = .ok e) {name : Text} :
    name ∈ e.usedMethods ↔ WritesCall t name := by
  obtain ⟨ts, d, lexed, _, _, derived⟩ := derives_of_compileTrimmed (compile_text_eq_ok.1 accepted)
  have calls := Expr.calledIn_of_derives derived [] nofun
  rw [List.append_nil, Scan.calledIn, List.append_nil] at calls
  rw [Expr.mem_usedMethods_written, ← calls, Scan.mem_calledIn]
  constructor
  · exact fun written => ⟨ts, lexed, written⟩
  · rintro ⟨ts', lexed', written⟩
    cases lexed.symm.trans lexed'
    exact written

end Gate

namespace BranchSpec

theorem usedVariables_eq_ok {s : BranchSpec} {ns : List Nat} : s.usedVariables = .ok ns ↔
    ∃ trees, List.Forall₂ (fun c e => BranchCondition.compile c = .ok e) s.conditions trees ∧
      ascending (fun a b => a < b) (trees.flatMap Expr.usedVariables) = ns := by
  rw [usedVariables, bind_eq_ok]
  simp only [mapM_eq_ok, Except.ok.injEq]

theorem mem_usedVariables {s : BranchSpec} {ns : List Nat} (told : s.usedVariables = .ok ns)
    (n : Nat) : n ∈ ns ↔ ∃ c ∈ s.conditions, WritesVariable c.expr n := by
  obtain ⟨trees, compiled, rfl⟩ := usedVariables_eq_ok.1 told
  rw [mem_ascending lt_total, List.mem_flatMap]
  constructor
  · rintro ⟨e, member, used⟩
    obtain ⟨c, stored, tree⟩ := forall₂_exists_right compiled.flip e member
    exact ⟨c, stored, (Gate.writesVariable_iff tree).1 used⟩
  · rintro ⟨c, stored, writes⟩
    obtain ⟨e, member, tree⟩ := forall₂_exists_right compiled c stored
    exact ⟨e, member, (Gate.writesVariable_iff tree).2 writes⟩

theorem pairwise_usedVariables {s : BranchSpec} {ns : List Nat} (told : s.usedVariables = .ok ns) :
    ns.Pairwise (· < ·) := by
  obtain ⟨trees, _, rfl⟩ := usedVariables_eq_ok.1 told
  exact pairwise_lt_ascending (trees.flatMap Expr.usedVariables)

/-- No variable and no method is lost or invented: an accepted tree uses those that its text is
written with. The conditions of a spec tell their variables together, in ascending order. -/
theorem names_accounted_for :
    (∀ config t e, Gate.compile config (.text t) = .ok e →
      (∀ n, n ∈ e.usedVariables ↔ WritesVariable t n) ∧
        ∀ name, name ∈ e.usedMethods ↔ WritesCall t name) ∧
    ∀ s : BranchSpec, (∀ c ∈ s.conditions, ∃ d, BranchCondition.ofValue d = .ok c) →
      ∃ ns, s.usedVariables = .ok ns ∧ ns.Pairwise (· < ·) ∧
        ∀ n, n ∈ ns ↔ ∃ c ∈ s.conditions, WritesVariable c.expr n := by
  constructor
  · intro config t e accepted
    exact ⟨fun n => Gate.writesVariable_iff accepted, fun name => Gate.writesCall_iff accepted⟩
  · intro s checked
    have compiles : ∀ c ∈ s.conditions, ∃ e, BranchCondition.compile c = .ok e := by
      intro c member
      obtain ⟨d, made⟩ := checked c member
      obtain ⟨fields, _, fitting⟩ := BranchCondition.ofValue_eq_ok.1 made
      exact fitting.sound.compiles
    obtain ⟨trees, compiled⟩ := mapM_succeeds compiles
    have told : s.usedVariables = .ok _ := bind_eq_ok.2 ⟨trees, compiled, rfl⟩
    exact ⟨_, told, pairwise_usedVariables told, mem_usedVariables told⟩

/-- A variable is negated and one has a key and is written with a zero; the quoted one is none. -/
def scatteredNames : Text := " !__v2.trim() || __v010['__v9']"

def scatteredCondition : Value :=
  .record [(BranchCondition.exprField, .text scatteredNames), (BranchCondition.targetField, "a")]

def laterVariable : Value :=
  .record [(BranchCondition.exprField, "__v4 > 1"), (BranchCondition.targetField, "b")]

theorem names_accounted_for_scattered :
    (∃ e, Gate.compile Config.default (.text scatteredNames) = .ok e ∧ e.usedVariables = [2, 10] ∧
      (∀ n, n ∈ e.usedVariables ↔ WritesVariable scatteredNames n) ∧
        ∀ name, name ∈ e.usedMethods ↔ WritesCall scatteredNames name) ∧
    ∃ a b, BranchCondition.ofValue scatteredCondition = .ok a ∧
      BranchCondition.ofValue laterVariable = .ok b ∧
      ∃ ns, BranchSpec.usedVariables ⟨"n", [b, a], .null⟩ = .ok ns ∧ ns = [2, 4, 10] ∧
        ∀ n, n ∈ ns ↔ ∃ c ∈ [b, a], WritesVariable c.expr n := by
  have read : (Gate.compile Config.default (.text scatteredNames)).toOption = some
      (.binary .or (.not (.call (.variable 2) ("trim" : String).toList))
        (.index 10 (.text ("__v9" : String).toList))) := by decide +kernel
  have first : BranchCondition.ofValue scatteredCondition =
      .ok ⟨scatteredNames.drop 1, ['a'], none⟩ := eq_ok_of_toOption (by decide +kernel)
  have second : BranchCondition.ofValue laterVariable =
      .ok ⟨("__v4 > 1" : String).toList, ['b'], none⟩ := eq_ok_of_toOption (by decide +kernel)
  have accepted := eq_ok_of_toOption read
  have accounted := names_accounted_for.1 Config.default scatteredNames _ accepted
  refine ⟨⟨_, accepted, by decide +kernel, accounted⟩, _, _, first, second, ?_⟩
  obtain ⟨ns, told, _, members⟩ := names_accounted_for.2
    ⟨"n", [⟨("__v4 > 1" : String).toList, ['b'], none⟩, ⟨scatteredNames.drop 1, ['a'], none⟩], .null⟩
    (by simpa using ⟨⟨_, second⟩, ⟨_, first⟩⟩)
  refine ⟨ns, told, ?_, members⟩
  have value : (BranchSpec.usedVariables ⟨"n", [⟨("__v4 > 1" : String).toList, ['b'], none⟩,
      ⟨scatteredNames.drop 1, ['a'], none⟩], .null⟩).toOption = some [2, 4, 10] := by decide +kernel
  exact Except.ok.inj (told.symm.trans (eq_ok_of_toOption value))

end BranchSpec
end BranchGate
