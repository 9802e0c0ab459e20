import BranchGate.Proofs.Token.Completeness

/-! The mask of a text lexes like the text: it has the same tokens in the same places, only with
spaces inside the strings. So where tokens stand, and what they are, can be read off the mask. -/
namespace BranchGate

/-- What a mask shows at its head is the text itself, as far as nothing is quoted. -/
theorem prefix_of_mask {u s : Text} (unquoted : ∀ c ∈ u, Quote.ofChar? c = none)
    (begins : u <+: mask s) : u <+: s := by
  induction u generalizing s with
  | nil => exact List.nil_prefix
  | cons c u ih =>
    obtain ⟨first, others⟩ := List.forall_mem_cons.1 unquoted
    cases s with
    | nil => cases List.prefix_nil.1 begins
    | cons d rest =>
      rw [mask, maskFrom, List.cons_prefix_cons] at begins
      obtain ⟨same, inner⟩ := begins
      have same : c = d := same
      subst same
      have plain : Region.code.next c = .code := by rw [Region.next, first]
      rw [plain] at inner
      exact List.cons_prefix_cons.2 ⟨rfl, ih others inner⟩

namespace Token

def blankLexeme (source : Text) : Lexeme → Lexeme
  | .text _ => .text (List.replicate (source.length - 2) ' ')
  | l => l

/-- The token that the mask has in place of this one. -/
def blanked (t : Token) : Token := ⟨blankLexeme t.source t.lexeme, mask t.source, t.pos⟩

theorem quoted_spaces (q : Quote) (n : Nat) : Quoted q (List.replicate n ' ') := by
  induction n with
  | zero => exact .nil
  | succ n ih =>
    rw [List.replicate_succ]
    exact .plain (by cases q <;> decide) (by decide) ih

theorem blankLexeme_code {lexeme : Lexeme} (source : Text) (code : ∀ data, lexeme ≠ .text data) :
    blankLexeme source lexeme = lexeme := by
  cases lexeme with
  | text data => exact absurd rfl (code data)
  | integer | decimal | punct | name => rfl

variable {lexeme : Lexeme} {source rest : Text}

theorem Spells.blanked (spells : Spells lexeme source) :
    Spells (blankLexeme source lexeme) (mask source) := by
  rcases spells.string_or_code with ⟨q, body, rfl, rfl, quoted⟩ | ⟨code, _⟩
  · have string := Spells.text (quoted_spaces q body.length)
    have plain : '\\' ∉ List.replicate body.length ' ' := by simp
    rw [unescape_plain plain] at string
    rw [quoted.mask_string.1]
    simpa [blankLexeme] using string
  · rwa [blankLexeme_code source code, spells.mask_code code]

theorem Apart.blanked (spells : Spells lexeme source) (apart : Apart lexeme source rest) :
    Apart (blankLexeme source lexeme) (mask source) (mask rest) := by
  cases lexeme with
  | text => trivial
  | decimal | name => exact fun c first => apart c (head?_maskFrom_code rest ▸ first)
  | integer =>
    refine ⟨fun c first => apart.1 c (head?_maskFrom_code rest ▸ first), fun d tail shown => ?_⟩
    cases rest with
    | nil => cases shown
    | cons c rest =>
      obtain ⟨isPoint, shown⟩ := List.cons.inj shown
      have isPoint : c = '.' := isPoint
      subst isPoint
      have second : rest.head? = some d := by
        rw [← head?_maskFrom_code rest]
        exact congrArg List.head? shown
      cases rest with
      | nil => cases second
      | cons e tail => cases second; exact apart.2 _ tail rfl
  | punct p =>
    intro m begins
    rw [length_mask]
    refine apart m (prefix_of_mask (fun c inside => (Text.punct_char inside).2.2.2.2) ?_)
    rwa [mask_append spells.closed]

theorem Lexed.blanked {pos : Nat} {s : Text} {ts : List Token} (lexed : Lexed pos s ts) :
    Lexed pos (mask s) (ts.map Token.blanked) := by
  induction lexed with
  | done => exact .done
  | layout layout _ ih => rw [mask_layout layout]; exact .layout layout ih
  | token spells apart _ ih =>
    rw [mask_append spells.closed]
    refine .token spells.blanked (apart.blanked spells) ?_
    rwa [length_mask]

end Token
end BranchGate
