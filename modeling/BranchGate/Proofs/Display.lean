import BranchGate.Display
import BranchGate.Proofs.Value.Integers

/-! Escaped text holds no markup, and escaping it again changes nothing. Entities give back what was
escaped: an entity that the text had before is the only thing that escaping hides. -/
namespace BranchGate.Display

/-- The characters of markup, each with its entity. -/
def entities : List (Char × Text) :=
  [('<', "&lt;"), ('>', "&gt;"), ('\x22', "&quot;"), ('\x27', "&#39;")]

def markup : List Char := entities.map Prod.fst

variable {c : Char} {entity : Text}

theorem entity_of_markup (special : c ∈ markup) : ∃ entity, (c, entity) ∈ entities := by
  obtain ⟨⟨_, entity⟩, known, rfl⟩ := List.mem_map.1 special
  exact ⟨entity, known⟩

/-- An entity is an ampersand with other characters after it, and holds no markup. -/
theorem entity_shape (known : (c, entity) ∈ entities) :
    ∃ inner, entity = '&' :: inner ∧ '&' ∉ inner ∧ ∀ d ∈ entity, d ∉ markup := by
  have all : ∀ e ∈ entities, e.2 = '&' :: e.2.tail ∧ '&' ∉ e.2.tail ∧
      e.2.all (fun d => d ∉ markup) = true := by decide
  obtain ⟨shape, whole, unmarked⟩ := all _ known
  exact ⟨_, shape, whole, by simpa using unmarked⟩

/-! ### Escaping -/

theorem escapeChar_entity (known : (c, entity) ∈ entities) : escapeChar c = entity := by
  have all : ∀ e ∈ entities, escapeChar e.1 = e.2 := by decide
  exact all _ known

theorem escapeChar_plain (plain : c ∉ markup) : escapeChar c = [c] := by
  simp only [markup, entities, List.map_cons, List.map_nil, List.mem_cons, List.not_mem_nil,
    or_false, not_or] at plain
  simp [escapeChar, plain]

theorem escape_append (s t : Text) : escape (s ++ t) = escape s ++ escape t := List.flatMap_append

theorem escape_cons (c : Char) (t : Text) : escape (c :: t) = escapeChar c ++ escape t :=
  List.flatMap_cons

theorem escape_plain {t : Text} (plain : ∀ c ∈ t, c ∉ markup) : escape t = t := by
  induction t with
  | nil => rfl
  | cons c t ih =>
    obtain ⟨first, others⟩ := List.forall_mem_cons.1 plain
    rw [escape_cons, escapeChar_plain first, ih others]
    rfl

theorem escape_unmarked (t : Text) : ∀ c ∈ escape t, c ∉ markup := by
  intro c inside
  obtain ⟨d, _, shown⟩ := List.mem_flatMap.1 inside
  by_cases special : d ∈ markup
  · obtain ⟨entity, known⟩ := entity_of_markup special
    obtain ⟨_, _, _, unmarked⟩ := entity_shape known
    rw [escapeChar_entity known] at shown
    exact unmarked c shown
  · rw [escapeChar_plain special, List.mem_singleton] at shown
    rwa [shown]

theorem escape_entity (known : (c, entity) ∈ entities) (rest : Text) :
    escape (entity ++ rest) = entity ++ escape rest := by
  obtain ⟨_, _, _, unmarked⟩ := entity_shape known
  rw [escape_append, escape_plain unmarked]

/-- What stands at the head of an escaped text stood there before, as far as no entity begins. -/
theorem prefix_of_escape {w t : Text} (inner : '&' ∉ w) (begins : w <+: escape t) : w <+: t := by
  induction w generalizing t with
  | nil => exact List.nil_prefix
  | cons d w ih =>
    rw [List.mem_cons, not_or] at inner
    cases t with
    | nil => cases List.prefix_nil.1 begins
    | cons c t =>
      rw [escape_cons] at begins
      by_cases special : c ∈ markup
      · obtain ⟨entity, known⟩ := entity_of_markup special
        obtain ⟨_, rfl, _⟩ := entity_shape known
        rw [escapeChar_entity known, List.cons_append, List.cons_prefix_cons] at begins
        exact absurd begins.1.symm inner.1
      · rw [escapeChar_plain special, List.singleton_append, List.cons_prefix_cons] at begins
        exact List.cons_prefix_cons.2 ⟨begins.1, ih inner.2 begins.2⟩

/-! ### Reading entities back -/

theorem unescape_entity (known : (c, entity) ∈ entities) (rest : Text) :
    unescape (entity ++ rest) = c :: unescape rest := by
  simp only [entities, List.mem_cons, Prod.mk.injEq, List.not_mem_nil, or_false] at known
  rcases known with ⟨rfl, rfl⟩ | ⟨rfl, rfl⟩ | ⟨rfl, rfl⟩ | ⟨rfl, rfl⟩
  · rfl
  · rfl
  · rfl
  · rfl

theorem unescape_cons {rest : Text} (none : ∀ e ∈ entities, ¬e.2 <+: c :: rest) :
    unescape (c :: rest) = c :: unescape rest := by
  have apart (d : Char) (inner : Text) (known : (d, '&' :: inner) ∈ entities) (more : Text) :
      c :: rest ≠ '&' :: (inner ++ more) := by
    intro same
    exact none _ known ⟨more, same.symm⟩
  rw [unescape.eq_def]
  split
  next same => exact absurd same (apart '<' ['l', 't', ';'] (by decide) _)
  next same => exact absurd same (apart '>' ['g', 't', ';'] (by decide) _)
  next same => exact absurd same (apart '\x22' ['q', 'u', 'o', 't', ';'] (by decide) _)
  next same => exact absurd same (apart '\x27' ['#', '3', '9', ';'] (by decide) _)
  next same => cases same; rfl
  next same => cases same

/-- Escaping completes no entity that the text had begun, and breaks up none that it held. -/
theorem unescape_escape (t : Text) : unescape (escape t) = unescape t := by
  -- A pass over the text goes entity by entity where one begins, else character by character.
  induction size : t.length using Nat.strongRecOn generalizing t with
  | ind n ih =>
    by_cases begins : ∃ e ∈ entities, e.2 <+: t
    · obtain ⟨⟨c, entity⟩, known, rest, rfl⟩ := begins
      obtain ⟨inner, shape, _⟩ := entity_shape known
      have shorter : rest.length < n := by
        simp only [shape, List.length_append, List.length_cons] at size
        omega
      rw [escape_entity known, unescape_entity known, unescape_entity known, ih _ shorter rest rfl]
    · have none : ∀ e ∈ entities, ¬e.2 <+: t := fun e known stands => begins ⟨e, known, stands⟩
      cases t with
      | nil => rfl
      | cons c rest =>
        have shorter : rest.length < n := size ▸ Nat.lt_succ_self rest.length
        rw [unescape_cons none, ← ih _ shorter rest rfl, escape_cons]
        by_cases special : c ∈ markup
        · obtain ⟨entity, known⟩ := entity_of_markup special
          rw [escapeChar_entity known, unescape_entity known]
        · rw [escapeChar_plain special, List.singleton_append]
          refine unescape_cons fun ⟨d, entity⟩ known stands => none _ known ?_
          obtain ⟨inner, rfl, whole, _⟩ := entity_shape known
          rw [List.cons_prefix_cons] at stands ⊢
          exact ⟨stands.1, prefix_of_escape whole stands.2⟩

theorem unescape_of_no_ampersand {t : Text} (bare : '&' ∉ t) : unescape t = t := by
  induction t with
  | nil => rfl
  | cons c rest ih =>
    rw [List.mem_cons, not_or] at bare
    rw [unescape_cons, ih bare.2]
    intro ⟨d, entity⟩ known stands
    obtain ⟨inner, rfl, _⟩ := entity_shape known
    exact bare.1 (List.cons_prefix_cons.1 stands).1

/-! ### Values on display -/

theorem eq_escape_of_render {v : Value} {shown : Text} (rendered : render v = some shown) :
    ∃ t, shown = escape t := by
  cases v with
  | null => exact ⟨[], (Option.some.inj rendered).symm⟩
  | _ =>
    simp only [render] at rendered
    obtain ⟨t, -, rfl⟩ := Option.map_eq_some_iff.1 rendered
    exact ⟨t, rfl⟩

theorem isSome_render {v : Value} : (render v).isSome = true ↔ v.Short := by
  cases v with
  | null => exact iff_of_true rfl (List.forall_mem_nil _)
  | _ =>
    rw [← Value.isSome_plain, render, Option.isSome_map]
    exact nofun

/-- A value is shown unless an integer in it has too many digits. What is shown holds no markup, and is
shown again as it is. Every text is shown, and read back as the text would be: as the text itself, if
that has no ampersand. Texts are shown piece by piece. -/
theorem render_inert (v : Value) (s t : Text) :
    ((render v).isSome = true ↔ v.Short) ∧
    (∀ shown, render v = some shown → (∀ c ∈ ['<', '>', '\x22', '\x27'], c ∉ shown) ∧
      render (.text shown) = some shown) ∧
    ∃ shown more : Text, render (.text s) = some shown ∧ render (.text t) = some more ∧
      (∀ c ∈ ['<', '>', '\x22', '\x27'], c ∉ shown) ∧ render (.text shown) = some shown ∧
      unescape shown = unescape s ∧ ('&' ∉ s → unescape shown = s) ∧
      render (.text (s ++ t)) = some (shown ++ more) := by
  have inert (t : Text) : (∀ c ∈ ['<', '>', '\x22', '\x27'], c ∉ escape t) ∧
      render (.text (escape t)) = some (escape t) :=
    ⟨fun c special inside => escape_unmarked t c inside special,
      congrArg some (escape_plain (escape_unmarked t))⟩
  refine ⟨isSome_render, fun shown rendered => ?_, escape s, escape t, rfl, rfl, (inert s).1,
    (inert s).2, unescape_escape s, fun bare => ?_, congrArg some (escape_append s t)⟩
  · obtain ⟨t, rfl⟩ := eq_escape_of_render rendered
    exact inert t
  · rw [unescape_escape, unescape_of_no_ampersand bare]

/-- A tag with both quotes in it. -/
theorem render_inert_tag :
    '&' ∉ ("<b title='\x22'>" : String).toList ∧
      (render (.text ("<b title='\x22'>" : String).toList)).map unescape =
        some ("<b title='\x22'>" : String).toList := by
  have bare : '&' ∉ ("<b title='\x22'>" : String).toList := by decide
  obtain ⟨-, -, shown, _, rendered, -, -, -, -, read, -⟩ :=
    render_inert .null ("<b title='\x22'>" : String).toList []
  refine ⟨bare, ?_⟩
  rw [rendered]
  exact congrArg some (read bare)

/-- Parts of entities next to what is escaped, and an entity that the text held before. -/
example : (render (.text ("&<&l<t;&lt\x22&gt;" : String).toList)).map unescape =
    some ("&<&l<t;&lt\x22>" : String).toList := by decide

end BranchGate.Display
