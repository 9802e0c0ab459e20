import BranchGate.Proofs.Expr.Usage
import BranchGate.Proofs.Lists
import Mathlib.Data.Finset.Dedup
import Mathlib.Data.Finset.Option
import Mathlib.Data.List.Nodup

/-! The walk of a tree by an explicit stack, against recursion over the tree. What is left for a walk
are the nodes of the trees on its stack; a round takes one of them. So a walk from the root is over
after as many rounds as the tree has nodes, has come to each place of the tree once, and has
collected what recursion collects. -/
namespace BranchGate.Tree

variable {α β σ : Type}

/-- What stands at a place. A place is told by the numbers of the children on the way to it. -/
def at? : Tree α → List Nat → Option α
  | .node v _, [] => some v
  | .node _ cs, i :: place => cs[i]?.bind (·.at? place)

mutual

/-- The places of a tree in preorder. -/
def places : Tree α → List (List Nat)
  | .node _ cs => [] :: placesFrom 0 cs

/-- The places in neighbouring children, the first of which has the given number. -/
def placesFrom : Nat → List (Tree α) → List (List Nat)
  | _, [] => []
  | i, t :: rest => t.places.map (i :: ·) ++ placesFrom (i + 1) rest

end

mutual

/-- The set of what is picked at the nodes of a tree, by recursion over the tree. -/
def picked [DecidableEq β] (pick : α → Option β) : Tree α → Finset β
  | .node v cs => (pick v).toFinset ∪ pickedAll pick cs

def pickedAll [DecidableEq β] (pick : α → Option β) : List (Tree α) → Finset β
  | [] => ∅
  | t :: rest => t.picked pick ∪ pickedAll pick rest

end

/-- A walk between two rounds: the trees that are left, and what the visits have come to so far. -/
structure Walk (α σ : Type) where
  stack : List (Tree α)
  result : σ

namespace Walk

/-- A round visits the root of the uppermost tree and puts the children in its place, the last one
uppermost; none when the stack is empty. -/
def round? (visit : σ → α → σ) : Walk α σ → Option (Walk α σ)
  | ⟨[], _⟩ => none
  | ⟨.node v cs :: stack, result⟩ => some ⟨cs.reverse ++ stack, visit result v⟩

/-- The walk after a number of rounds; none if it is over before. -/
def rounds? (visit : σ → α → σ) : Nat → Walk α σ → Option (Walk α σ)
  | 0, w => some w
  | n + 1, w => (w.round? visit).bind (rounds? visit n)

end Walk

/-- A visit that puts what is picked at a node among what was collected before. -/
def collecting (less : β → β → Bool) (pick : α → Option β) (collected : List β) (v : α) : List β :=
  match pick v with
  | some x => insertAscending less x collected
  | none => collected

/-- A walk from the root ends with these as its collection. They are, each once, what recursion over
the tree finds. -/
def Collects [DecidableEq β] (less : β → β → Bool) (pick : α → Option β) (t : Tree α)
    (collected : List β) : Prop :=
  Walk.rounds? (collecting less pick) t.size ⟨[t], []⟩ = some ⟨[], collected⟩ ∧
    collected.Nodup ∧ collected.toFinset = t.picked pick

@[elab_as_elim]
theorem induct {motive : Tree α → Prop}
    (node : ∀ v cs, (∀ t ∈ cs, motive t) → motive (.node v cs)) : ∀ t, motive t
  | .node v cs => node v cs fun t _ => induct node t

section Preorder

theorem preorderOntoAll_eq {ts : List (Tree α)} {tail : List α}
    (each : ∀ t ∈ ts, ∀ tail, t.preorderOnto tail = t.preorder ++ tail) :
    preorderOntoAll ts tail = ts.flatMap preorder ++ tail := by
  induction ts with
  | nil => rfl
  | cons t ts ih =>
    rw [List.forall_mem_cons] at each
    rw [preorderOntoAll, each.1, ih each.2, List.flatMap_cons, List.append_assoc]

theorem preorderOnto_eq (t : Tree α) (tail : List α) :
    t.preorderOnto tail = t.preorder ++ tail := by
  induction t using induct generalizing tail with
  | node v cs ih =>
    rw [preorder, preorderOnto, preorderOnto, preorderOntoAll_eq ih, preorderOntoAll_eq ih,
      List.append_nil, List.cons_append]

theorem preorder_node (v : α) (cs : List (Tree α)) :
    preorder (.node v cs) = v :: cs.flatMap preorder := by
  rw [preorder, preorderOnto, preorderOntoAll_eq fun t _ => t.preorderOnto_eq, List.append_nil]

end Preorder

section Places

variable {t : Tree α} {ts cs : List (Tree α)} {i : Nat} {p : List Nat}

theorem mem_placesFrom : p ∈ placesFrom i ts ↔
    ∃ k t q, ts[k]? = some t ∧ q ∈ t.places ∧ p = (i + k) :: q := by
  induction ts generalizing i with
  | nil => simp [placesFrom]
  | cons t rest ih =>
    rw [placesFrom, List.mem_append, List.mem_map, ih]
    constructor
    · rintro (⟨q, inside, rfl⟩ | ⟨k, t', q, child, inside, rfl⟩)
      · exact ⟨0, t, q, rfl, inside, rfl⟩
      · exact ⟨k + 1, t', q, child, inside, by rw [Nat.add_assoc, Nat.add_comm 1]⟩
    · rintro ⟨k, t', q, child, inside, rfl⟩
      cases k with
      | zero =>
        cases child
        exact .inl ⟨q, inside, rfl⟩
      | succ k => exact .inr ⟨k, t', q, child, inside, by rw [Nat.add_assoc, Nat.add_comm 1]⟩

theorem mem_places : p ∈ t.places ↔ (t.at? p).isSome := by
  induction t using induct generalizing p with
  | node v cs ih =>
    cases p with
    | nil => simp [places, at?]
    | cons i p =>
      simp only [places, List.mem_cons, reduceCtorEq, false_or, mem_placesFrom, at?]
      cases child : cs[i]? with
      | none => simp [child]
      | some t => simp [child, ih t (List.mem_of_getElem? child)]

theorem nodup_placesFrom (each : ∀ t ∈ ts, t.places.Nodup) : (placesFrom i ts).Nodup := by
  induction ts generalizing i with
  | nil => exact .nil
  | cons t rest ih =>
    rw [List.forall_mem_cons] at each
    rw [placesFrom, List.nodup_append']
    refine ⟨each.1.map List.cons_injective, ih each.2, fun p here there => ?_⟩
    -- the numbers of the later children are larger
    obtain ⟨q, _, rfl⟩ := List.mem_map.1 here
    obtain ⟨k, _, _, _, _, same⟩ := mem_placesFrom.1 there
    have := (List.cons.inj same).1
    omega

theorem nodup_places (t : Tree α) : t.places.Nodup := by
  induction t using induct with
  | node v cs ih =>
    refine List.nodup_cons.2 ⟨fun below => ?_, nodup_placesFrom ih⟩
    obtain ⟨_, _, _, _, _, same⟩ := mem_placesFrom.1 below
    cases same

theorem map_at?_placesFrom {v : α} (rest : cs.drop i = ts)
    (each : ∀ t ∈ ts, t.places.map t.at? = t.preorder.map some) :
    (placesFrom i ts).map (at? (.node v cs)) = (ts.flatMap preorder).map some := by
  induction ts generalizing i with
  | nil => rfl
  | cons t ts ih =>
    rw [List.forall_mem_cons] at each
    have child : cs[i]? = some t := by rw [← List.head?_drop, rest]; rfl
    have later : cs.drop (i + 1) = ts := by rw [← List.tail_drop, rest]; rfl
    have below : at? (.node v cs) ∘ (i :: ·) = t.at? := by
      funext p
      simp [at?, child]
    rw [placesFrom, List.map_append, List.map_map, below, ih later each.2, List.flatMap_cons,
      List.map_append, each.1]

/-- Preorder shows what stands at the places, one after the other. -/
theorem map_at?_places (t : Tree α) : t.places.map t.at? = t.preorder.map some := by
  induction t using induct with
  | node v cs ih =>
    rw [preorder_node, places, List.map_cons, List.map_cons, at?,
      map_at?_placesFrom List.drop_zero ih]

end Places

section Picked

variable [DecidableEq β] {pick : α → Option β} {x : β}

theorem mem_pickedAll {ts : List (Tree α)} :
    x ∈ pickedAll pick ts ↔ ∃ t ∈ ts, x ∈ t.picked pick := by
  induction ts with
  | nil => simp [pickedAll]
  | cons t rest ih => simp [pickedAll, ih]

theorem mem_picked {t : Tree α} : x ∈ t.picked pick ↔ ∃ v ∈ t.preorder, pick v = some x := by
  induction t using induct with
  | node v cs ih =>
    have below : x ∈ pickedAll pick cs ↔ ∃ w ∈ cs.flatMap preorder, pick w = some x := by
      rw [mem_pickedAll]
      constructor
      · rintro ⟨t, member, found⟩
        obtain ⟨w, inside, same⟩ := (ih t member).1 found
        exact ⟨w, List.mem_flatMap.2 ⟨t, member, inside⟩, same⟩
      · rintro ⟨w, inside, same⟩
        obtain ⟨t, member, inside⟩ := List.mem_flatMap.1 inside
        exact ⟨t, member, (ih t member).2 ⟨w, inside, same⟩⟩
    rw [picked, Finset.mem_union, Option.mem_toFinset, Option.mem_def, below, preorder_node]
    simp only [List.mem_cons, or_and_right, exists_or, exists_eq_left]

end Picked

theorem walk_node (v : α) (cs stack : List (Tree α)) :
    walk (.node v cs :: stack) = v :: walk (cs.reverse ++ stack) := by
  rw [walk]

/-- The walk visits the nodes of the trees on its stack, in an order of its own. -/
theorem walk_perm (stack : List (Tree α)) : (walk stack).Perm (stack.flatMap preorder) := by
  induction stack using walk.induct with
  | case1 =>
    rw [walk]
    exact .nil
  | case2 v cs stack ih =>
    simp only [List.unattach_reverse, List.unattach_attach] at ih
    rw [walk_node, List.flatMap_cons, preorder_node]
    -- after the root, both go on with the children and then with the rest of the stack
    refine .cons v (ih.trans ?_)
    rw [List.flatMap_append]
    exact ((List.reverse_perm cs).flatMap_right preorder).append_right _

theorem walk_root_perm (t : Tree α) : (walk [t]).Perm t.preorder := by
  simpa using walk_perm [t]

/-- The walk from the root comes to every place once. -/
theorem walk_places (t : Tree α) : ∃ places : List (List Nat), places.Nodup ∧
    (∀ p, p ∈ places ↔ (t.at? p).isSome) ∧ (walk [t]).map some = places.map t.at? := by
  have perm : ((walk [t]).map some).Perm (t.places.map t.at?) := by
    rw [map_at?_places]
    exact t.walk_root_perm.map some
  obtain ⟨places, order, visited⟩ := exists_map_of_perm perm
  refine ⟨places, order.nodup_iff.2 t.nodup_places, fun p => ?_, visited⟩
  rw [order.mem_iff, mem_places]

namespace Walk

variable {visit : σ → α → σ} {w w' : Walk α σ}

theorem round?_eq_none : w.round? visit = none ↔ w.stack = [] := by
  obtain ⟨stack, result⟩ := w
  cases stack with
  | nil => simp [round?]
  | cons t stack =>
    cases t
    simp [round?]

theorem round?_eq_some : w.round? visit = some w' ↔ ∃ v cs stack,
    w.stack = .node v cs :: stack ∧ w' = ⟨cs.reverse ++ stack, visit w.result v⟩ := by
  obtain ⟨stack, result⟩ := w
  cases stack with
  | nil => simp [round?]
  | cons t stack =>
    cases t
    simp [round?, eq_comm]

/-- A round takes one node from those that are left. -/
theorem sizeAll_round (step : w.round? visit = some w') :
    sizeAll w.stack = sizeAll w'.stack + 1 := by
  obtain ⟨v, cs, stack, top, rfl⟩ := round?_eq_some.1 step
  rw [top, sizeAll, size, sizeAll_append, sizeAll_reverse]
  omega

/-- A round does not change what the walk will have come to. -/
theorem foldl_round (step : w.round? visit = some w') :
    (walk w'.stack).foldl visit w'.result = (walk w.stack).foldl visit w.result := by
  obtain ⟨v, cs, stack, top, rfl⟩ := round?_eq_some.1 step
  rw [top, walk_node, List.foldl_cons]

/-- A walk is over after as many rounds as nodes are left. -/
theorem rounds?_sizeAll (w : Walk α σ) :
    rounds? visit (sizeAll w.stack) w = some ⟨[], (walk w.stack).foldl visit w.result⟩ := by
  -- the stack may grow in a round, the number of nodes that are left does not
  induction count : sizeAll w.stack generalizing w with
  | zero =>
    obtain ⟨stack, result⟩ := w
    cases stack with
    | nil =>
      rw [walk]
      rfl
    | cons t stack =>
      have := t.size_pos
      simp only [sizeAll] at count
      omega
  | succ n ih =>
    cases step : w.round? visit with
    | none =>
      rw [round?_eq_none.1 step] at count
      cases count
    | some w' =>
      have fewer := sizeAll_round step
      rw [rounds?, step, Option.bind_some, ih w' (by omega), foldl_round step]

theorem rounds?_size (t : Tree α) (s : σ) :
    rounds? visit t.size ⟨[t], s⟩ = some ⟨[], (walk [t]).foldl visit s⟩ :=
  rounds?_sizeAll ⟨[t], s⟩

end Walk

theorem foldl_collecting {less : β → β → Bool} {pick : α → Option β} (vs : List α) :
    vs.foldl (collecting less pick) [] = ascending less (vs.filterMap pick) := by
  rw [ascending, List.foldl_filterMap]
  rfl

theorem collects [DecidableEq β] {less : β → β → Bool} {pick : α → Option β} {t : Tree α}
    (total : ∀ a b, less a b = false → less b a = false → a = b)
    (distinct : ∀ xs, (ascending less xs).Nodup) :
    Collects less pick t (ascending less ((walk [t]).filterMap pick)) := by
  refine ⟨?_, distinct _, ?_⟩
  · rw [Walk.rounds?_size, foldl_collecting]
  · ext x
    rw [List.mem_toFinset, mem_ascending total, List.mem_filterMap, mem_picked]
    exact exists_congr fun v => and_congr_left' t.walk_root_perm.mem_iff

end BranchGate.Tree

namespace BranchGate.Expr

theorem collects_variables (t : Tree Node) :
    t.Collects (fun a b => a < b) Node.usedVariable?
      (ascending (fun a b => a < b) ((Tree.walk [t]).filterMap Node.usedVariable?)) :=
  Tree.collects lt_total fun ns => (pairwise_lt_ascending ns).imp Nat.ne_of_lt

theorem collects_methods (t : Tree Node) :
    t.Collects Text.less Node.usedMethod?
      (ascending Text.less ((Tree.walk [t]).filterMap Node.usedMethod?)) :=
  Tree.collects Text.less_total nodup_less_ascending

/-- A walk from the root of any tree, whatever its visits do, is over after as many rounds as there
are nodes, and comes to every place of the tree and to none twice. So what it collects of variables
and of methods is what recursion over the tree finds; for an expression these are the variables and
methods that it uses. -/
theorem walk_visits_whole (t : Tree Node) (e : Expr) :
    (∀ (σ : Type) (visit : σ → Node → σ) (s : σ), Tree.Walk.rounds? visit t.size ⟨[t], s⟩ =
      some ⟨[], (Tree.walk [t]).foldl visit s⟩) ∧
    (∃ places : List (List Nat), places.Nodup ∧ (∀ p, p ∈ places ↔ (t.at? p).isSome) ∧
      (Tree.walk [t]).map some = places.map t.at?) ∧
    (∃ ns, t.Collects (fun a b => a < b) Node.usedVariable? ns) ∧
    (∃ names, t.Collects Text.less Node.usedMethod? names) ∧
    e.toTree.Collects (fun a b => a < b) Node.usedVariable? e.usedVariables ∧
    e.toTree.Collects Text.less Node.usedMethod? e.usedMethods :=
  ⟨fun _ _ s => Tree.Walk.rounds?_size t s, t.walk_places, ⟨_, collects_variables t⟩,
    ⟨_, collects_methods t⟩, collects_variables e.toTree, collects_methods e.toTree⟩

/-- A variable with a child, and one that stands at two places. -/
example : Tree.Walk.rounds? (Tree.collecting (fun a b => a < b) Node.usedVariable?) 4
    ⟨[.node (.call "trim") [.node (.variable 3) [.node (.variable 1) []],
      .node (.variable 3) []]], []⟩ = some ⟨[], [1, 3]⟩ := rfl

end BranchGate.Expr
