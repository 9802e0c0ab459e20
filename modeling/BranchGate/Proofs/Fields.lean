import BranchGate.Fields
import Mathlib.Data.List.Nodup

/-! Look-up in merged fields, the order of their names, and merging where the names are already
there. -/
namespace BranchGate.Fields

variable {α β : Type} {fields more object : Fields α} {name : Text} {f : Text × α}

theorem putAll_cons : fields.putAll (f :: more) = (fields.put f.1 f.2).putAll more := rfl

theorem putAllNew_cons :
    fields.putAllNew (f :: more) = (fields.putNew f.1 f.2).putAllNew more := rfl

theorem putAllNew_append {others : Fields α} :
    fields.putAllNew (more ++ others) = (fields.putAllNew more).putAllNew others :=
  List.foldl_append

theorem get?_cons :
    get? (f :: fields) name = if f.1 = name then some f.2 else get? fields name := by
  by_cases same : f.1 = name
  · simp [get?, same]
  · simp [get?, same]

theorem get?_append : get? (fields ++ more) name = (get? fields name).or (get? more name) := by
  induction fields with
  | nil => rfl
  | cons f rest ih =>
    rw [List.cons_append, get?_cons, get?_cons, ih]
    split <;> rfl

theorem get?_filter {p : Text → Bool} (kept : p name = true) :
    get? (fields.filter fun f => p f.1) name = get? fields name := by
  induction fields with
  | nil => rfl
  | cons f rest ih =>
    rw [List.filter_cons, get?_cons]
    by_cases same : f.1 = name
    · rw [if_pos (by rw [same, kept]), get?_cons, if_pos same, if_pos same]
    · rw [if_neg same]
      split
      · rw [get?_cons, if_neg same, ih]
      · exact ih

/-- Of several values put under one name the last counts. -/
theorem get?_putAll :
    (putAll fields more).get? name = (get? more.reverse name).or (fields.get? name) := by
  induction more generalizing fields with
  | nil => rfl
  | cons f rest ih =>
    rw [putAll_cons, ih, get?_put, List.reverse_cons, get?_append, get?_cons,
      Option.or_assoc]
    split <;> rfl

theorem has_iff_mem : fields.has name = true ↔ name ∈ fields.names := by
  simp [has, names]

theorem mem_of_get? {value : α} (found : fields.get? name = some value) :
    (name, value) ∈ fields := by
  obtain ⟨f, here, rfl⟩ := Option.map_eq_some_iff.1 found
  obtain rfl : f.1 = name := by simpa using List.find?_some here
  exact List.mem_of_find?_eq_some here

theorem get?_eq_none_iff : fields.get? name = none ↔ fields.has name = false := by
  simp [has, get?]

theorem has_reverse : has fields.reverse name = fields.has name := List.any_reverse

theorem has_put : (fields.put f.1 f.2).has name = (fields.has name || f.1 == name) := by
  rw [Bool.eq_iff_iff, Bool.or_eq_true, has_iff_mem, has_iff_mem, names_put, beq_iff_eq]
  split
  next known => exact ⟨.inl, fun | .inl old => old | .inr same => same ▸ known⟩
  next => rw [List.mem_append, List.mem_singleton, eq_comm (a := f.1)]

theorem has_putAll : (putAll fields more).has name = (fields.has name || more.has name) := by
  induction more generalizing fields with
  | nil => exact (Bool.or_false _).symm
  | cons f rest ih =>
    rw [putAll_cons, ih, has_put, Bool.or_assoc]
    rfl

theorem get?_reverse_putNew : get? (fields.putNew f.1 f.2).reverse name =
    (get? fields.reverse name).or (get? [f] name) := by
  rw [putNew, get?_cons]
  by_cases known : fields.has f.1 = true
  · rw [if_pos known]
    by_cases same : f.1 = name
    · subst same
      cases found : get? fields.reverse f.1 with
      | none => rw [get?_eq_none_iff, has_reverse, known] at found; cases found
      | some value => rfl
    · rw [if_neg same]
      exact Option.or_none.symm
  · rw [if_neg known, List.reverse_concat, get?_cons]
    by_cases same : f.1 = name
    · subst same
      rw [get?_eq_none_iff.2 (by rwa [has_reverse, ← Bool.not_eq_true])]
      simp
    · rw [if_neg same, if_neg same]
      exact Option.or_none.symm

/-- Of several values under one new name the first counts. -/
theorem get?_reverse_putAllNew : get? (putAllNew fields more).reverse name =
    (get? fields.reverse name).or (get? more name) := by
  induction more generalizing fields with
  | nil => exact Option.or_none.symm
  | cons f rest ih =>
    rw [putAllNew_cons, ih, get?_reverse_putNew, Option.or_assoc,
      ← get?_append, List.singleton_append]

theorem get?_putNew :
    (fields.putNew f.1 f.2).get? name = (fields.get? name).or (get? [f] name) := by
  rw [putNew]
  split
  next known =>
    rw [get?_cons]
    split
    next same =>
      cases found : fields.get? name with
      | none => rw [get?_eq_none_iff, ← same, known] at found; cases found
      | some value => rfl
    next => exact Option.or_none.symm
  next => exact get?_append

theorem get?_putAllNew :
    (putAllNew fields more).get? name = (fields.get? name).or (get? more name) := by
  induction more generalizing fields with
  | nil => exact Option.or_none.symm
  | cons f rest ih =>
    rw [putAllNew_cons, ih, get?_putNew, Option.or_assoc, ← get?_append, List.singleton_append]

theorem has_filter {p : Text → Bool} (kept : p name = true) :
    has (fields.filter fun f => p f.1) name = fields.has name := by
  rw [Bool.eq_iff_iff, has_iff_mem, has_iff_mem]
  simp [names, kept]

theorem filter_putNew {p : Text → Bool} : (fields.putNew f.1 f.2).filter (fun f => p f.1) =
    if p f.1 then putNew (fields.filter fun f => p f.1) f.1 f.2
    else fields.filter fun f => p f.1 := by
  rw [putNew, apply_ite (List.filter _), List.filter_append]
  by_cases kept : p f.1 = true
  · rw [if_pos kept, putNew, has_filter kept]
    simp [kept]
  · simp [kept]

theorem filter_putAllNew {p : Text → Bool} : (putAllNew fields more).filter (fun f => p f.1) =
    putAllNew (fields.filter fun f => p f.1) (more.filter fun f => p f.1) := by
  induction more generalizing fields with
  | nil => rfl
  | cons f rest ih =>
    rw [putAllNew_cons, ih, filter_putNew, List.filter_cons]
    split <;> rfl

theorem has_putAllNew (known : object.has name = true) (more : Fields α) :
    (object.putAllNew more).has name = true := by
  induction more generalizing object with
  | nil => exact known
  | cons f rest ih =>
    rw [putAllNew_cons, putNew]
    split
    · exact ih known
    · apply ih
      rw [has, List.any_append, ← has, known, Bool.true_or]

theorem putAllNew_putNew (known : object.has f.1 = true) :
    object.putAllNew (fields.putNew f.1 f.2) = object.putAllNew fields := by
  rw [putNew]
  split
  · rfl
  · rw [putAllNew_append, putAllNew_cons, putNew, if_pos (has_putAllNew known fields)]
    rfl

/-- Fields whose names an object has do not count among what is new to it. -/
theorem putAllNew_putAllNew (known : ∀ f ∈ more, object.has f.1 = true) :
    object.putAllNew (putAllNew fields more) = object.putAllNew fields := by
  induction more generalizing fields with
  | nil => rfl
  | cons f rest ih =>
    obtain ⟨first, others⟩ := List.forall_mem_cons.1 known
    rw [putAllNew_cons, ih others, putAllNew_putNew first]

section Values

variable {p : α → Prop}

theorem forall_put (all : ∀ g ∈ fields, p g.2) (given : p f.2) :
    ∀ g ∈ fields.put f.1 f.2, p g.2 := by
  induction fields with
  | nil => exact List.forall_mem_singleton.2 given
  | cons g rest ih =>
    obtain ⟨first, others⟩ := List.forall_mem_cons.1 all
    rw [put]
    split
    · exact List.forall_mem_cons.2 ⟨given, others⟩
    · exact List.forall_mem_cons.2 ⟨first, ih others⟩

theorem forall_putNew (all : ∀ g ∈ fields, p g.2) (given : p f.2) :
    ∀ g ∈ fields.putNew f.1 f.2, p g.2 := by
  rw [putNew]
  split
  · exact all
  · exact List.forall_mem_append.2 ⟨all, List.forall_mem_singleton.2 given⟩

/-- What holds of all values still does when more values of which it holds are put in. -/
theorem forall_putAll (all : ∀ g ∈ fields, p g.2) (given : ∀ g ∈ more, p g.2) :
    ∀ g ∈ fields.putAll more, p g.2 := by
  induction more generalizing fields with
  | nil => exact all
  | cons f rest ih =>
    obtain ⟨first, others⟩ := List.forall_mem_cons.1 given
    exact ih (forall_put all first) others

theorem forall_putAllNew (all : ∀ g ∈ fields, p g.2) (given : ∀ g ∈ more, p g.2) :
    ∀ g ∈ fields.putAllNew more, p g.2 := by
  induction more generalizing fields with
  | nil => exact all
  | cons f rest ih =>
    obtain ⟨first, others⟩ := List.forall_mem_cons.1 given
    exact ih (forall_putNew all first) others

end Values

section Names

theorem names_putNew : (fields.putNew f.1 f.2).names =
    if f.1 ∈ fields.names then fields.names else fields.names ++ [f.1] := by
  rw [putNew]
  by_cases known : f.1 ∈ fields.names
  · rw [if_pos (has_iff_mem.2 known), if_pos known]
  · rw [if_neg (mt has_iff_mem.1 known), if_neg known]
    exact List.map_append

/-- A name joins those there, and the rest join them then. -/
theorem join_names (known rest : List Text) (name : Text) :
    let joined := if name ∈ known then known else known ++ [name]
    joined ++ (rest.removeAll joined).eraseDups =
      known ++ ((name :: rest).removeAll known).eraseDups := by
  intro joined
  by_cases old : name ∈ known
  · simp [joined, old, List.removeAll]
  · simp only [joined, old, if_false, List.removeAll, List.filter_cons, List.elem_eq_mem,
      decide_false, Bool.not_false, if_true, List.eraseDups_cons, List.filter_filter,
      List.append_assoc, List.singleton_append]
    congr 3
    refine List.filter_congr fun other _ => ?_
    rw [Bool.eq_iff_iff]
    simp [and_comm]

/-- Names stand in the order in which they first came. -/
theorem names_putAll : (putAll fields more).names =
    fields.names ++ (more.names.removeAll fields.names).eraseDups := by
  induction more generalizing fields with
  | nil => exact (List.append_nil _).symm
  | cons f rest ih =>
    rw [putAll_cons, ih, names_put]
    exact join_names fields.names (names rest) f.1

theorem names_putAllNew : (putAllNew fields more).names =
    fields.names ++ (more.names.removeAll fields.names).eraseDups := by
  induction more generalizing fields with
  | nil => exact (List.append_nil _).symm
  | cons f rest ih =>
    rw [putAllNew_cons, ih, names_putNew]
    exact join_names fields.names (names rest) f.1

theorem nodup_names_put (distinct : fields.names.Nodup) (value : α) :
    (fields.put name value).names.Nodup := by
  rw [names_put]
  split
  · exact distinct
  next new => exact List.nodup_append_comm.1 (List.nodup_cons.2 ⟨new, distinct⟩)

theorem nodup_names_putAll (distinct : fields.names.Nodup) (more : Fields α) :
    (fields.putAll more).names.Nodup := by
  induction more generalizing fields with
  | nil => exact distinct
  | cons f rest ih => exact ih (nodup_names_put distinct f.2)

theorem nodup_names_putAllNew (distinct : fields.names.Nodup) (more : Fields α) :
    (fields.putAllNew more).names.Nodup := by
  induction more generalizing fields with
  | nil => exact distinct
  | cons f rest ih =>
    refine ih ?_
    rw [names_putNew, ← names_put fields f.1 f.2]
    exact nodup_names_put distinct f.2

theorem mem_names_putAllNew :
    name ∈ (putAllNew fields more).names ↔ name ∈ fields.names ∨ name ∈ more.names := by
  rw [names_putAllNew, List.mem_append, List.mem_eraseDups, List.removeAll, List.mem_filter]
  by_cases known : name ∈ fields.names
  · simp [known]
  · simp [known]

theorem put_of_new (new : name ∉ fields.names) (value : α) :
    fields.put name value = fields ++ [(name, value)] := by
  induction fields with
  | nil => rfl
  | cons f rest ih =>
    obtain ⟨other, later⟩ := not_or.1 (mt List.mem_cons.2 new)
    rw [put, if_neg (Ne.symm other), ih later]
    rfl

theorem putAll_of_new (distinct : (fields ++ more).names.Nodup) :
    fields.putAll more = fields ++ more := by
  induction more generalizing fields with
  | nil => exact (List.append_nil fields).symm
  | cons f rest ih =>
    have same : fields ++ f :: rest = fields ++ [(f.1, f.2)] ++ rest := List.append_cons ..
    have new : f.1 ∉ fields.names := by
      rw [names, List.map_append, List.nodup_append] at distinct
      exact fun known => distinct.2.2 _ known _ List.mem_cons_self rfl
    rw [putAll_cons, put_of_new new, ih (same ▸ distinct), same]

/-- Under distinct names every field is found. -/
theorem get?_of_mem (distinct : fields.names.Nodup) (member : f ∈ fields) :
    fields.get? f.1 = some f.2 := by
  induction fields with
  | nil => cases member
  | cons g rest ih =>
    obtain ⟨new, distinct⟩ := List.nodup_cons.1 distinct
    rw [get?_cons]
    rcases List.mem_cons.1 member with rfl | later
    · exact if_pos rfl
    · have apart : g.1 ≠ f.1 := fun same => new (List.mem_map.2 ⟨f, later, same.symm⟩)
      rw [if_neg apart, ih distinct later]

theorem get?_reverse (distinct : fields.names.Nodup) (name : Text) :
    get? fields.reverse name = fields.get? name := by
  have reversed : (names fields.reverse).Nodup := by
    rw [names, List.map_reverse]
    exact List.nodup_reverse.2 distinct
  cases found : fields.get? name with
  | none => rwa [get?_eq_none_iff, has_reverse, ← get?_eq_none_iff]
  | some value =>
    exact get?_of_mem reversed (List.mem_reverse.2 (mem_of_get? found))

/-- Pairs of distinct names are fields as they stand. -/
theorem ofPairs_of_nodup (distinct : fields.names.Nodup) : ofPairs fields = fields :=
  putAll_of_new distinct

end Names

end BranchGate.Fields
