import BranchGate.Expr.Grammar
import BranchGate.Expr.Usage

/-! Where the nodes of a derived tree are written: properties and methods after a dot, keys
between brackets right after a variable. -/
namespace BranchGate

/-- A tree, or a tree somewhere below it. -/
inductive Tree.Within {α : Type} (s : Tree α) : Tree α → Prop
  | root : Within s s
  | child {v cs t} : t ∈ cs → Within s t → Within s (.node v cs)

namespace Expr

variable {methods : List Text} {lexs : List Lexeme}

/-- The grammar has lexemes for what stands at the root. -/
def Grounded (methods : List Text) (lexs : List Lexeme) : Tree Node → Prop
  | .node (.member name) _ => isProperty name = true ∧ [.punct .dot, .name name] <:+: lexs
  | .node (.call name) _ =>
    name ∈ methods ∧ isProperty name = true ∧ [.punct .dot, .name name] <:+: lexs
  | .node (.index key) children => (∃ n, children = [.node (.variable n) []]) ∧
    ∃ sign, key? sign = some key ∧ [.punct .openBracket, sign, .punct .closeBracket] <:+: lexs
  | _ => True

theorem Grounded.mono {more : List Lexeme} {s : Tree Node} (grounded : Grounded methods lexs s)
    (inside : lexs <:+: more) : Grounded methods more s := by
  obtain ⟨v, cs⟩ := s
  cases v with
  | member name => exact ⟨grounded.1, grounded.2.trans inside⟩
  | call name => exact ⟨grounded.1, grounded.2.1, grounded.2.2.trans inside⟩
  | index key =>
    obtain ⟨child, sign, known, written⟩ := grounded
    exact ⟨child, sign, known, written.trans inside⟩
  | literal | «variable» | not | binary => trivial

/-- Every node of the tree is grounded. -/
def GroundedAll (methods : List Text) (lexs : List Lexeme) (t : Tree Node) : Prop :=
  ∀ s, Tree.Within s t → Grounded methods lexs s

theorem GroundedAll.mono {more : List Lexeme} {t : Tree Node}
    (grounded : GroundedAll methods lexs t) (inside : lexs <:+: more) :
    GroundedAll methods more t :=
  fun s within => (grounded s within).mono inside

theorem GroundedAll.node {v : Node} {cs : List (Tree Node)}
    (root : Grounded methods lexs (.node v cs)) (below : ∀ t ∈ cs, GroundedAll methods lexs t) :
    GroundedAll methods lexs (.node v cs) := by
  intro s within
  cases within with
  | root => exact root
  | child member within => exact below _ member s within

theorem GroundedAll.leaf {v : Node} (root : Grounded methods lexs (.node v [])) :
    GroundedAll methods lexs (.node v []) :=
  .node root nofun

theorem derives_grounded {form : Form} {e : Expr} {d : Nat}
    (derived : Derives methods form lexs e d) : GroundedAll methods lexs e.toTree := by
  induction derived with
  | operand _ ih | tighter _ ih | ofSuffixed _ ih | ofPrimary _ ih => exact ih
  | binary _ _ _ ihLeft ihRight =>
    refine .node trivial (List.forall_mem_cons.2 ⟨?_, List.forall_mem_singleton.2 ?_⟩)
    · exact ihLeft.mono (List.prefix_append _ _).isInfix
    · exact ihRight.mono ((List.suffix_cons _ _).trans (List.suffix_append _ _)).isInfix
  | not _ ih =>
    exact .node trivial (List.forall_mem_singleton.2 (ih.mono (List.suffix_cons _ _).isInfix))
  | member _ property ih =>
    refine .node ⟨property, (List.suffix_append _ _).isInfix⟩ (List.forall_mem_singleton.2 ?_)
    exact ih.mono (List.prefix_append _ _).isInfix
  | @call ts _ _ _ _ property granted ih =>
    refine .node ⟨granted, property, ts, [.punct .openParen, .punct .closeParen], by simp⟩ ?_
    exact List.forall_mem_singleton.2 (ih.mono (List.prefix_append _ _).isInfix)
  | @callWith ts _ _ name inner _ _ _ property granted _ ih ihInner =>
    refine .node ⟨granted, property, ts, .punct .openParen :: (inner ++ [.punct .closeParen]),
      by simp⟩ (List.forall_mem_cons.2 ⟨?_, List.forall_mem_singleton.2 ?_⟩)
    · exact ih.mono (List.prefix_append _ _).isInfix
    · exact ihInner.mono ⟨ts ++ [.punct .dot, .name name, .punct .openParen],
        [.punct .closeParen], by simp⟩
  | index target known ih =>
    refine .node ⟨⟨_, rfl⟩, _, known, (List.suffix_append _ _).isInfix⟩ ?_
    exact List.forall_mem_singleton.2 (.leaf trivial)
  | integer | decimal | text | reserved | «variable» | negativeInteger | negativeDecimal =>
    exact .leaf trivial
  | group _ ih => exact ih.mono ⟨[.punct .openParen], [.punct .closeParen], rfl⟩

end Expr
end BranchGate
