import BranchGate.Proofs.Expr.Completeness
import BranchGate.Proofs.Expr.Usage
import BranchGate.Proofs.Scan.Words

/-! What a tree uses, in the order in which it is written. A derived list of lexemes holds the
variables of its tree and no others, and its calls are those of the tree. -/
namespace BranchGate

/-- The number of a workflow variable. -/
def Lexeme.numbered? : Lexeme → Option Nat
  | .name n => (variableDigits? n).map Text.toNat
  | _ => none

@[simp] theorem Lexeme.numbered?_punct (p : Punct) : (Lexeme.punct p).numbered? = none := rfl

theorem Lexeme.numbered?_eq_some {l : Lexeme} {n : Nat} : l.numbered? = some n ↔
    ∃ digits, l = .name ('_' :: '_' :: 'v' :: digits) ∧ Token.IsDigits digits ∧
      Text.toNat digits = n := by
  have digits_iff {ds : Text} :
      (!ds.isEmpty && ds.all Char.isDigit) = true ↔ Token.IsDigits ds := by
    simp [Token.IsDigits]
  constructor
  · intro known
    cases l with
    | name name =>
      obtain ⟨digits, spelled, value⟩ := Option.map_eq_some_iff.1 known
      unfold variableDigits? at spelled
      split at spelled
      next ds =>
        split at spelled
        next isDigits =>
          cases spelled
          exact ⟨digits, rfl, digits_iff.1 isDigits, value⟩
        next => cases spelled
      next => cases spelled
    | _ => cases known
  · rintro ⟨digits, rfl, isDigits, rfl⟩
    simp [numbered?, variableDigits?, digits_iff.2 isDigits]

namespace Scan

variable {name : Text} {lexs : List Lexeme}

theorem calledIn_skip {l : Lexeme} (other : l ≠ .punct .dot) :
    calledIn (l :: lexs) = calledIn lexs := by
  rw [calledIn]
  exact other

/-- The called names are those between a dot and an opening parenthesis. -/
theorem mem_calledIn :
    name ∈ calledIn lexs ↔ [.punct .dot, .name name, .punct .openParen] <:+: lexs := by
  induction lexs with
  | nil => simp [calledIn]
  | cons l rest ih =>
    rw [List.infix_cons_iff, List.cons_prefix_cons, ← ih, ← calledName_eq_some]
    by_cases dot : l = .punct .dot
    · rw [dot]
      simp [calledIn]
    · rw [calledIn_skip dot]
      simp [Ne.symm dot]

end Scan

namespace Expr

/-- The nodes of a tree in the order in which they are written. -/
def written : Expr → List Node
  | .literal v => [.literal v]
  | .variable n => [.variable n]
  | .index n key => [.variable n, .index key]
  | .member target name => target.written ++ [.member name]
  | .call target name => target.written ++ [.call name]
  | .callWith target name argument => target.written ++ .call name :: argument.written
  | .not e => .not :: e.written
  | .binary op l r => l.written ++ .binary op :: r.written

/-- The walk meets the nodes that are written. -/
theorem mem_walk_toTree {e : Expr} {v : Node} : v ∈ Tree.walk [e.toTree] ↔ v ∈ e.written := by
  rw [Tree.mem_walk]
  simp only [List.mem_singleton, exists_eq_left]
  induction e with
  | literal | «variable» | index => simp [toTree, written, Tree.meets_node, or_comm]
  | member target name ih => simp [toTree, written, Tree.meets_node, ih, or_comm]
  | call target name ih => simp [toTree, written, Tree.meets_node, ih, or_comm]
  | callWith target name argument ih ihArgument =>
    simp [toTree, written, Tree.meets_node, ih, ihArgument, or_left_comm]
  | not e ih => simp [toTree, written, Tree.meets_node, ih]
  | binary op l r ihLeft ihRight =>
    simp [toTree, written, Tree.meets_node, ihLeft, ihRight, or_left_comm]

theorem mem_usedVariables {e : Expr} {n : Nat} :
    n ∈ e.usedVariables ↔ n ∈ e.written.filterMap Node.usedVariable? := by
  simp only [usedVariables, mem_ascending lt_total, List.mem_filterMap, mem_walk_toTree]

theorem mem_usedMethods_written {e : Expr} {name : Text} :
    name ∈ e.usedMethods ↔ name ∈ e.written.filterMap Node.usedMethod? := by
  simp only [usedMethods, mem_ascending Text.less_total, List.mem_filterMap, mem_walk_toTree]

variable {methods : List Text} {form : Form} {lexs : List Lexeme} {e : Expr} {d : Nat}

theorem numbered?_property {name : Text} (property : isProperty name = true) :
    (Lexeme.name name).numbered? = none := by
  cases found : (Lexeme.name name).numbered? with
  | none => rfl
  | some n =>
    obtain ⟨digits, same, _⟩ := Lexeme.numbered?_eq_some.1 found
    cases same
    cases property

/-- The variables among the lexemes are those of the tree, each in its place. -/
theorem variables_of_derives (derived : Derives methods form lexs e d) :
    lexs.filterMap Lexeme.numbered? = e.written.filterMap Node.usedVariable? := by
  induction derived with
  | operand _ ih | tighter _ ih | ofSuffixed _ ih | ofPrimary _ ih => exact ih
  | binary _ known _ ihLeft ihRight =>
    obtain ⟨p, rfl, _⟩ := operator?_punct known
    simp [written, ihLeft, ihRight, List.filterMap_cons, Node.usedVariable?]
  | not _ ih => simp [written, ih, List.filterMap_cons, Node.usedVariable?]
  | negativeInteger n | negativeDecimal x => rfl
  | member _ property ih | call _ property _ ih =>
    have silent := numbered?_property property
    simp [written, ih, silent, List.filterMap_cons, Node.usedVariable?]
  | callWith _ property _ _ ih ihArgument =>
    have silent := numbered?_property property
    simp [written, ih, ihArgument, silent, List.filterMap_cons, Node.usedVariable?]
  | @index _ _ _ sign _ _ known ih =>
    have silent : sign.numbered? = none := by
      cases sign <;> cases known <;> rfl
    simp [written, ih, silent, List.filterMap_cons, Node.usedVariable?]
  | integer | decimal | text => rfl
  | @reserved name v known =>
    have silent : (Lexeme.name name).numbered? = none := by
      cases digits : variableDigits? name with
      | none => simp [Lexeme.numbered?, digits]
      | some ds => cases known.symm.trans (ofName?_of_variable digits)
    simp [written, silent, List.filterMap_cons, Node.usedVariable?]
  | «variable» known => simp [written, Lexeme.numbered?, known, Node.usedVariable?]
  | group _ ih => simp [ih, List.filterMap_cons]

/-- The calls among the lexemes are those of the tree, each in its place. What comes after them
must not turn a last property into a method. -/
theorem calledIn_of_derives (derived : Derives methods form lexs e d) :
    ∀ rest : List Lexeme, rest.head? ≠ some (.punct .openParen) →
      Scan.calledIn (lexs ++ rest) =
        e.written.filterMap Node.usedMethod? ++ Scan.calledIn rest := by
  induction derived with
  | operand _ ih | tighter _ ih | ofSuffixed _ ih | ofPrimary _ ih => exact ih
  | binary _ known _ ihLeft ihRight =>
    intro rest apart
    obtain ⟨p, rfl, dot, _, opens, _⟩ := operator?_punct known
    rw [List.append_assoc, ihLeft _ (by simp [opens]), List.cons_append,
      Scan.calledIn_skip (by simp [dot]), ihRight rest apart]
    simp [written, List.filterMap_cons, Node.usedMethod?]
  | not _ ih =>
    intro rest apart
    rw [List.cons_append, Scan.calledIn_skip (by simp), ih rest apart]
    simp [written, List.filterMap_cons, Node.usedMethod?]
  | negativeInteger n | negativeDecimal x => exact fun _ _ => rfl
  | @member _ _ _ name _ _ ih =>
    intro rest apart
    have uncalled : Scan.calledName (.name name :: rest) = none := by
      rw [Option.eq_none_iff_forall_ne_some]
      intro n called
      obtain ⟨_, rfl⟩ := (List.cons_prefix_cons.1 (Scan.calledName_eq_some.1 called)).2
      exact apart rfl
    rw [List.append_assoc, ih _ (by simp)]
    simp [Scan.calledIn, uncalled, written, List.filterMap_cons, Node.usedMethod?]
  | call _ _ _ ih =>
    intro rest apart
    rw [List.append_assoc, ih _ (by simp)]
    simp [Scan.calledIn, Scan.calledName, written, Node.usedMethod?]
  | callWith _ _ _ _ ih ihArgument =>
    intro rest apart
    have inner := ihArgument (.punct .closeParen :: rest) (by simp)
    rw [List.append_assoc, ih _ (by simp)]
    simp [Scan.calledIn, Scan.calledName, inner, written, Node.usedMethod?]
  | index _ known ih =>
    intro rest apart
    have silent := ne_punct_of_key known
    rw [List.append_assoc, ih _ (by simp), List.cons_append, Scan.calledIn_skip (by simp),
      List.cons_append, Scan.calledIn_skip (silent _)]
    simp [Scan.calledIn, written, List.filterMap_cons, Node.usedMethod?]
  | integer | decimal | text | reserved | «variable» =>
    intro rest apart
    simp [Scan.calledIn, written, List.filterMap_cons, Node.usedMethod?]
  | group _ ih =>
    intro rest apart
    have inner := ih (.punct .closeParen :: rest) (by simp)
    simp [Scan.calledIn, inner]

end Expr
end BranchGate
