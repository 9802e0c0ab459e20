import BranchGate.Proofs.Expr.Neighbours
import BranchGate.Proofs.Scan.Keys

/-! The bracket scan of what the grammar derives. A bracket opens after a variable or after a group
around one; the scan takes the variable and refuses the group. -/
namespace BranchGate

namespace Token

/-- After layout or a mark no name goes on. -/
theorem Lexed.mask_ends {pos : Nat} {s : Text} {ts : List Token} (lexed : Lexed pos s ts)
    (mark : ∀ t ∈ ts.getLast?, ∃ p, t.lexeme = .punct p) :
    ∀ c ∈ (mask s).getLast?, Text.isNameChar c = false := by
  have blank {x : Text} {pos : Nat} (front : Lexed pos x []) :
      mask x = x ∧ ∀ c ∈ x, Text.isNameChar c = false :=
    ⟨(mask_blank fun c inside => Text.isBlank_of_isLayout (front.layout_of_nil c inside)).1,
      fun c inside => Text.isNameChar_of_isLayout (front.layout_of_nil c inside)⟩
  rcases List.eq_nil_or_concat' ts with rfl | ⟨init, t, rfl⟩
  · obtain ⟨masked, outside⟩ := blank lexed
    rw [masked]
    exact fun c last => outside c (List.mem_of_getLast? last)
  · obtain ⟨p, isMark⟩ := mark t List.getLast?_concat
    obtain ⟨a, b, rfl, _, front, spells, _, rest⟩ := lexed.split
    rw [isMark] at spells
    obtain ⟨masked, outside⟩ := blank rest
    rw [mask_append front.closed, mask_append spells.closed, masked, spells.mask_code nofun,
      spells.punct_source,
      List.getLast?_append_of_ne_nil _ (List.append_ne_nil_of_left_ne_nil (Punct.text_ne_nil p) b)]
    intro c last
    rcases List.mem_append.1 (List.mem_of_getLast? last) with inside | inside
    · exact (Text.punct_char inside).2.2.2.1
    · exact outside c inside

end Token

namespace Scan

open Token (Lexed Spells)

/-- A variable at the end, blanks aside, and no name or dot before it. -/
theorem endsInVariable_name {x n y : Text} (blank : ∀ c ∈ x, Text.isBlank c = true)
    (named : Text.isName n = true) (apart : ∀ c ∈ y.getLast?, Text.isNameChar c = false) :
    endsInVariable (y ++ (n ++ x)).reverse =
      (isVariable n && !afterDot y.reverse) := by
  have blank : ∀ c ∈ x.reverse, Text.isBlank c = true :=
    fun c inside => blank c (List.mem_reverse.1 inside)
  have inner : ∀ c ∈ n.reverse, Text.isNameChar c = true :=
    fun c inside => Text.isNameChar_of_mem named (List.mem_reverse.1 inside)
  have stop : ∀ c ∈ y.reverse.head?, Text.isNameChar c = false := by
    rw [List.head?_reverse]
    exact apart
  obtain ⟨taken, left⟩ := Token.takeWhile_append_stop inner stop
  have ink : (n.reverse ++ y.reverse).dropWhile Text.isBlank = n.reverse ++ y.reverse := by
    obtain ⟨c, tail, shape⟩ : ∃ c tail, n.reverse = c :: tail := by
      refine List.exists_cons_of_ne_nil fun none => ?_
      rw [List.reverse_eq_nil_iff.1 none] at named
      cases named
    have ink := Text.isBlank_of_isNameChar (inner c (by simp [shape]))
    rw [shape, List.cons_append, List.dropWhile_cons_of_neg (by simp [ink])]
  simp only [endsInVariable, afterDot, List.reverse_append, List.append_assoc,
    List.dropWhile_append_of_pos blank, ink, taken, left, List.reverse_reverse]
  rfl

theorem endsInVariable_other {x y : Text} {c : Char} (blank : ∀ c ∈ x, Text.isBlank c = true)
    (ink : Text.isBlank c = false) (outside : Text.isNameChar c = false) :
    endsInVariable (y ++ ([c] ++ x)).reverse = false := by
  have blank : ∀ c ∈ x.reverse, Text.isBlank c = true :=
    fun c inside => blank c (List.mem_reverse.1 inside)
  have unnamed : isVariable [] = false := rfl
  simp [endsInVariable, List.dropWhile_append_of_pos blank, ink, outside, unnamed]

/-- What may be indexed ends in a variable, unless a parenthesis closes there. -/
theorem endsInVariable_base {s : Text} {init : List Token} {t : Token}
    (lexed : Lexed 0 s (init ++ [t])) (base : Expr.IsBase t.lexeme)
    (beside : ((init ++ [t]).map Token.lexeme).IsChain Expr.Beside) :
    endsInVariable (mask s).reverse = true ↔ t.lexeme ≠ .punct .closeParen := by
  obtain ⟨a, b, rfl, _, front, spells, _, rest⟩ := lexed.split
  have layout : ∀ c ∈ b, Text.isBlank c = true :=
    fun c inside => Text.isBlank_of_isLayout (rest.layout_of_nil c inside)
  rw [mask_append front.closed, mask_append spells.closed, (mask_blank layout).1]
  rcases base with isClose | ⟨n, isName, isVar⟩
  · have closes : t.source = [')'] := (isClose ▸ spells).punct_source
    rw [closes, show mask [')'] = [')'] from rfl, endsInVariable_other layout rfl rfl, isClose]
    simp
  · rw [isName] at spells
    obtain ⟨source, named⟩ := spells.name_source
    have before : ∀ u ∈ init.getLast?, ∃ p, u.lexeme = .punct p ∧ p ≠ .dot := by
      intro u last
      rw [List.map_append, List.isChain_append, List.getLast?_map] at beside
      refine Expr.beside_variable ?_ isVar
      exact beside.2.2 _ (Option.mem_map_of_mem _ last) _ (congrArg some isName)
    have apart : ∀ c ∈ (mask a).getLast?, Text.isNameChar c = false := by
      refine front.mask_ends fun u last => ?_
      obtain ⟨p, isMark, _⟩ := before u last
      exact ⟨p, isMark⟩
    have undotted : afterDot (mask a).reverse = false := by
      rw [← List.append_nil (mask a).reverse, front.afterDot []]
      cases last : init.getLast? with
      | none => rfl
      | some u =>
        obtain ⟨p, isMark, other⟩ := before u last
        simp [isMark, other]
    rw [spells.mask_code nofun, source, endsInVariable_name layout named apart, undotted, isVar,
      isName]
    simp

variable {s : Text} {ts : List Token}

/-- What the scan makes of what stands before an opening bracket. -/
theorem endsInVariable_at {l r : List Token} {u t : Token} (lexed : Lexed 0 s (l ++ u :: t :: r))
    (isOpen : t.lexeme = .punct .openBracket)
    (beside : ((l ++ u :: t :: r).map Token.lexeme).IsChain Expr.Beside) :
    endsInVariable (((mask s).take (t.pos - 0)).reverse ++ []) = true ↔
      u.lexeme ≠ .punct .closeParen := by
  rw [show l ++ u :: t :: r = l ++ [u] ++ t :: r by simp] at lexed beside
  obtain ⟨a, b, rfl, stands, front, _⟩ := lexed.split
  rw [List.map_append, List.isChain_append] at beside
  have next : Expr.Beside u.lexeme t.lexeme := beside.2.2 _ (by simp) _ rfl
  rw [mask_append front.closed, stands, Nat.zero_add, Nat.sub_zero, List.take_left' (length_mask a),
    List.append_nil]
  exact endsInVariable_base front (Expr.beside_bracket (isOpen ▸ next)) beside.1

/-- Every bracket opens after a variable exactly if none opens after a parenthesis. -/
theorem based_of_joined (lexed : Lexed 0 s ts) (joined : Expr.Joined (ts.map Token.lexeme)) :
    Based [] 0 s ts ↔
      ¬[.punct .closeParen, .punct .openBracket] <:+: ts.map Token.lexeme := by
  constructor
  · intro based written
    obtain ⟨closing, opening, ⟨before, after, whole⟩, isClose, isOpen⟩ := pair_of_infix_map written
    rw [List.append_assoc] at whole
    subst whole
    have seen := based opening (by simp) isOpen
    exact (endsInVariable_at lexed isOpen joined.beside).1 seen isClose
  · intro absent t member isOpen
    obtain ⟨l, r, rfl⟩ := List.append_of_mem member
    rcases List.eq_nil_or_concat' l with rfl | ⟨init, u, rfl⟩
    · have opens := joined.opens t.lexeme rfl
      rw [isOpen] at opens
      exact absurd opens (by simp [Expr.Opens])
    · rw [List.append_assoc] at lexed joined
      refine (endsInVariable_at lexed isOpen joined.beside).2 fun isClose => absent ?_
      exact ⟨init.map Token.lexeme, r.map Token.lexeme, by simp [isClose, isOpen]⟩

/-- The bracket scan of what the grammar derives: the keys have to be allowed, and no bracket may
open after a parenthesis. -/
theorem bracketFault?_derived {limit : Limit} {methods : List Text} {form : Expr.Form} {e : Expr}
    {d : Nat} (lexed : Lexed 0 s ts)
    (derived : Expr.Derives methods form (ts.map Token.lexeme) e d) :
    bracketFault? limit s = none ↔ AllowedKeys limit ts ∧
      ¬[.punct .closeParen, .punct .openBracket] <:+: ts.map Token.lexeme := by
  rw [← based_of_joined lexed (Expr.joined_of_derives derived)]
  exact bracketFaultFrom_lexed (Expr.keyed_of_derives derived) [] lexed rfl

end Scan
end BranchGate
