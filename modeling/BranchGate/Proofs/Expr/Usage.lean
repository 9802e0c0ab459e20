import BranchGate.Proofs.Expr.Nodes

/-! The methods that a tree is said to use are those of its calls. A derivation asks for no other
methods, so it may be read with any methods that have these. -/
namespace BranchGate

section Ascending

variable {α : Type} {less : α → α → Bool}

theorem mem_insertAscending (total : ∀ a b, less a b = false → less b a = false → a = b)
    {x y : α} {xs : List α} : y ∈ insertAscending less x xs ↔ y = x ∨ y ∈ xs := by
  induction xs with
  | nil => simp [insertAscending]
  | cons z rest ih =>
    cases before : less x z with
    | true => simp [insertAscending, before]
    | false =>
      cases after : less z x with
      | true =>
        simp only [insertAscending, before, after, Bool.false_eq_true, ↓reduceIte, List.mem_cons, ih]
        exact or_left_comm
      | false =>
        rw [total x z before after]
        simp [insertAscending, total x z before after ▸ before]

theorem mem_ascending (total : ∀ a b, less a b = false → less b a = false → a = b) {y : α}
    {xs : List α} : y ∈ ascending less xs ↔ y ∈ xs := by
  have step (xs acc : List α) : y ∈ xs.foldl (fun acc x => insertAscending less x acc) acc ↔
      y ∈ xs ∨ y ∈ acc := by
    induction xs generalizing acc with
    | nil => simp
    | cons x xs ih => simp [ih, mem_insertAscending total, or_assoc, or_left_comm]
  simpa [ascending] using step xs []

theorem pairwise_insertAscending (total : ∀ a b, less a b = false → less b a = false → a = b)
    (trans : ∀ a b c, less a b = true → less b c = true → less a c = true) {x : α} {xs : List α}
    (sorted : xs.Pairwise fun a b => less a b = true) :
    (insertAscending less x xs).Pairwise fun a b => less a b = true := by
  induction xs with
  | nil => exact .cons nofun .nil
  | cons y rest ih =>
    obtain ⟨least, sorted'⟩ := List.pairwise_cons.1 sorted
    cases before : less x y with
    | true =>
      simp only [insertAscending, before, ↓reduceIte]
      refine .cons (fun z member => ?_) sorted
      rcases List.mem_cons.1 member with rfl | later
      · exact before
      · exact trans _ _ _ before (least z later)
    | false =>
      cases after : less y x with
      | true =>
        simp only [insertAscending, before, after, Bool.false_eq_true, ↓reduceIte]
        refine .cons (fun z member => ?_) (ih sorted')
        rcases (mem_insertAscending total).1 member with rfl | later
        · exact after
        · exact least z later
      | false => simpa [insertAscending, before, after] using sorted

theorem pairwise_ascending (total : ∀ a b, less a b = false → less b a = false → a = b)
    (trans : ∀ a b c, less a b = true → less b c = true → less a c = true) (xs : List α) :
    (ascending less xs).Pairwise fun a b => less a b = true := by
  have step (acc : List α) (sorted : acc.Pairwise fun a b => less a b = true) :
      (xs.foldl (fun acc x => insertAscending less x acc) acc).Pairwise
        fun a b => less a b = true := by
    induction xs generalizing acc with
    | nil => exact sorted
    | cons x xs ih => exact ih _ (pairwise_insertAscending total trans sorted)
  exact step [] .nil

end Ascending

theorem lt_total (a b : Nat) (before : decide (a < b) = false)
    (after : decide (b < a) = false) : a = b := by
  simp only [decide_eq_false_iff_not] at before after
  omega

theorem pairwise_lt_ascending (ns : List Nat) :
    (ascending (fun a b => a < b) ns).Pairwise (· < ·) := by
  have trans (a b c : Nat) (first : decide (a < b) = true) (second : decide (b < c) = true) :
      decide (a < c) = true := by
    simp only [decide_eq_true_eq] at first second ⊢
    omega
  simpa using pairwise_ascending lt_total trans ns

theorem Text.less_total (a b : Text) (before : Text.less a b = false)
    (after : Text.less b a = false) : a = b := by
  induction a generalizing b with
  | nil =>
    cases b with
    | nil => rfl
    | cons d b => cases before
  | cons c a ih =>
    cases b with
    | nil => cases after
    | cons d b =>
      simp only [Text.less, Bool.or_eq_false_iff, decide_eq_false_iff_not, Bool.and_eq_false_iff]
        at before after
      have same : c = d := Char.toNat_inj.1 (by omega)
      subst same
      simp only [beq_self_eq_true, Bool.true_eq_false, false_or] at before after
      rw [ih b before.2 after.2]

theorem Text.less_irrefl (a : Text) : Text.less a a = false := by
  induction a with
  | nil => rfl
  | cons c a ih => simp [Text.less, ih]

theorem Text.less_trans (a b c : Text) (first : Text.less a b = true)
    (second : Text.less b c = true) : Text.less a c = true := by
  induction a generalizing b c with
  | nil =>
    cases c with
    | nil => cases b <;> cases second
    | cons z c => rfl
  | cons x a ih =>
    cases b with
    | nil => cases first
    | cons y b =>
      cases c with
      | nil => cases second
      | cons z c =>
        simp only [Text.less, Bool.or_eq_true, decide_eq_true_eq, Bool.and_eq_true, beq_iff_eq]
          at first second ⊢
        rcases first with before | ⟨rfl, before⟩
        · rcases second with after | ⟨rfl, _⟩
          · exact .inl (Nat.lt_trans before after)
          · exact .inl before
        · rcases second with after | ⟨rfl, after⟩
          · exact .inl after
          · exact .inr ⟨rfl, ih b c before after⟩

theorem nodup_less_ascending (names : List Text) : (ascending Text.less names).Nodup := by
  refine (pairwise_ascending Text.less_total Text.less_trans names).imp fun {a b} before => ?_
  rintro rfl
  rw [Text.less_irrefl] at before
  cases before

namespace Tree

variable {α : Type}

theorem within_node {s : Tree α} {w : α} {cs : List (Tree α)} :
    Within s (.node w cs) ↔ s = .node w cs ∨ ∃ t ∈ cs, Within s t := by
  constructor
  · intro within
    cases within with
    | root => exact .inl rfl
    | child member within => exact .inr ⟨_, member, within⟩
  · rintro (rfl | ⟨t, member, within⟩)
    · exact .root
    · exact .child member within

/-- A value stands at the root or somewhere below. -/
theorem meets_node {v w : α} {ts : List (Tree α)} : (∃ cs, Within (.node v cs) (.node w ts)) ↔
    v = w ∨ ∃ t ∈ ts, ∃ cs, Within (.node v cs) t := by
  simp only [within_node, node.injEq]
  constructor
  · rintro ⟨cs, ⟨rfl, rfl⟩ | ⟨t, member, within⟩⟩
    · exact .inl rfl
    · exact .inr ⟨t, member, cs, within⟩
  · rintro (rfl | ⟨t, member, cs, within⟩)
    · exact ⟨ts, .inl ⟨rfl, rfl⟩⟩
    · exact ⟨cs, .inr ⟨t, member, within⟩⟩

/-- The walk meets every node of the trees on its stack. -/
theorem mem_walk {v : α} {stack : List (Tree α)} :
    v ∈ walk stack ↔ ∃ t ∈ stack, ∃ cs, Within (.node v cs) t := by
  fun_induction walk stack with
  | case1 => simp
  | case2 w cs stack ih =>
    simp only [List.unattach_reverse, List.unattach_attach, List.mem_append, List.mem_reverse] at ih
    rw [List.mem_cons, ih]
    simp only [List.mem_cons, or_and_right, exists_or, exists_eq_left, meets_node, or_assoc]

end Tree

namespace Expr

theorem mem_usedMethods {e : Expr} {name : Text} :
    name ∈ e.usedMethods ↔ ∃ cs, Tree.Within (.node (.call name) cs) e.toTree := by
  have isCall {v : Node} : v.usedMethod? = some name ↔ v = .call name := by
    cases v <;> simp [Node.usedMethod?]
  simp [usedMethods, mem_ascending Text.less_total, Tree.mem_walk, isCall]

variable {methods methods' : List Text} {form : Form} {lexs : List Lexeme} {e : Expr} {d : Nat}

/-- The methods that a derived tree uses are allowed. -/
theorem usedMethods_of_derives (derived : Derives methods form lexs e d) :
    ∀ name ∈ e.usedMethods, name ∈ methods := by
  intro name used
  obtain ⟨cs, within⟩ := mem_usedMethods.1 used
  exact (derives_grounded derived _ within).1

/-- All calls below are of these methods. -/
def CallsOnly (methods : List Text) (t : Tree Node) : Prop :=
  ∀ name cs, Tree.Within (.node (.call name) cs) t → name ∈ methods

theorem CallsOnly.child {v : Node} {cs : List (Tree Node)} {t : Tree Node}
    (only : CallsOnly methods (.node v cs)) (member : t ∈ cs) : CallsOnly methods t :=
  fun name below within => only name below (.child member within)

theorem Derives.callsOnly (derived : Derives methods form lexs e d)
    (only : CallsOnly methods' e.toTree) : Derives methods' form lexs e d := by
  induction derived with
  | operand _ ih => exact .operand (ih only)
  | tighter _ ih => exact .tighter (ih only)
  | binary _ known _ ihLeft ihRight =>
    exact .binary (ihLeft (only.child (by simp))) known (ihRight (only.child (by simp)))
  | not _ ih => exact .not (ih (only.child (by simp)))
  | negativeInteger n => exact .negativeInteger n
  | negativeDecimal x => exact .negativeDecimal x
  | ofSuffixed _ ih => exact .ofSuffixed (ih only)
  | ofPrimary _ ih => exact .ofPrimary (ih only)
  | member _ property ih => exact .member (ih (only.child (by simp))) property
  | call _ property _ ih => exact .call (ih (only.child (by simp))) property (only _ _ .root)
  | callWith _ property _ _ ih ihArgument =>
    exact .callWith (ih (only.child (by simp))) property (only _ _ .root)
      (ihArgument (only.child (by simp)))
  | index _ known ih => exact .index (ih (only.child (List.mem_singleton.2 rfl))) known
  | integer n => exact .integer n
  | decimal x => exact .decimal x
  | text t => exact .text t
  | reserved known => exact .reserved known
  | «variable» known => exact .variable known
  | group _ ih => exact .group (ih only)

/-- A derivation may be had with any methods that include the ones used. -/
theorem Derives.withMethods (derived : Derives methods form lexs e d)
    (granted : ∀ name ∈ e.usedMethods, name ∈ methods') : Derives methods' form lexs e d :=
  derived.callsOnly fun name cs within => granted name (mem_usedMethods.2 ⟨cs, within⟩)

end Expr
end BranchGate
