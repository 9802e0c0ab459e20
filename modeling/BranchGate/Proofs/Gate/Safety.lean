import BranchGate.Proofs.Expr.Completeness
import BranchGate.Proofs.Expr.Nodes
import BranchGate.Proofs.Gate.Steps
import BranchGate.Proofs.Rule.Words
import BranchGate.Proofs.Scan.Brackets

/-! What a tree that passes the gate may name. Every property, method and key is checked where it
is written; nothing denied gets into the tree by an escape, by case or at the edge of a word. -/
namespace BranchGate

open Scan (Verbatim)

theorem Scan.Verbatim.padded {l s r k : Text} (verbatim : Verbatim s k)
    (blank : ∀ c ∈ l, Text.isBlank c = true) : Verbatim (l ++ (s ++ r)) k := by
  obtain ⟨q, a, b, rfl, before, bare, plain⟩ := verbatim
  refine ⟨q, l ++ a, b ++ r, by simp, ?_, bare, plain⟩
  rw [Region.after_append, (mask_blank blank).2, before]

theorem Scan.Verbatim.not_isDenied {s k : Text} (verbatim : Verbatim s k)
    (passes : Rule.first? denylist s = none) : ¬IsDenied k := by
  obtain ⟨q, a, b, rfl, _⟩ := verbatim
  have whole : a ++ q.char :: (k ++ q.char :: b) = (a ++ [q.char]) ++ (k ++ q.char :: b) := by simp
  rw [whole] at passes
  refine BranchGate.not_isDenied passes ?_ ?_
  · rw [List.getLast?_concat]
    rintro _ ⟨⟩
    exact Text.isWord_quote q
  · rintro _ ⟨⟩
    exact Text.isWord_quote q

namespace Gate

open BranchGate.Expr (Node)

/-- An ASCII identifier that neither hides a property nor is denied. -/
structure SafeName (name : Text) : Prop where
  named : Text.isName name = true
  shown : isHiddenProperty name = false
  allowed : ¬IsDenied name

/-- An integer, or a text that the condition has between quotes as it is. -/
def SafeKey (t : Text) : Key → Prop
  | .integer _ => True
  | .text k => Verbatim t k ∧ ¬IsDenied k

def SafeNode (config : Config) (t : Text) : Tree Node → Prop
  | .node (.member name) _ => SafeName name
  | .node (.call name) _ => name ∈ config.methods ∧ SafeName name
  | .node (.index key) children =>
    (∃ n, children = [.node (.variable n) []]) ∧ SafeKey t key
  | _ => True

theorem safeName_of_written {s name : Text} {ts : List Token} (laid : Token.Lexed 0 s ts)
    (passes : Rule.first? denylist s = none) (property : Expr.isProperty name = true)
    (written : [.punct .dot, .name name] <:+: ts.map Token.lexeme) : SafeName name := by
  obtain ⟨a, b, rfl, named, left, right⟩ := laid.property written
  exact ⟨named, by simpa [Expr.isProperty] using property, not_isDenied passes left right⟩

theorem safeKey_of_written {limit : Limit} {s : Text} {key : Key} {sign : Lexeme}
    {ts : List Token} (laid : Token.Lexed 0 s ts) (passes : Rule.first? denylist s = none)
    (brackets : Scan.bracketFault? limit s = none) (known : Expr.key? sign = some key)
    (written : [.punct .openBracket, sign, .punct .closeBracket] <:+: ts.map Token.lexeme) :
    SafeKey s key := by
  cases key with
  | integer n => trivial
  | text k =>
    have isText : sign = .text k := by
      cases sign <;> cases known
      rfl
    rw [isText] at written
    have verbatim := Scan.key_verbatim laid brackets written
    exact ⟨verbatim, verbatim.not_isDenied passes⟩

theorem SafeKey.padded {l s r : Text} {key : Key} (safe : SafeKey s key)
    (blank : ∀ c ∈ l, Text.isBlank c = true) : SafeKey (l ++ (s ++ r)) key := by
  cases key with
  | integer n => trivial
  | text k => exact ⟨safe.1.padded blank, safe.2⟩

/-- Every node of a tree that the gate lets through is safe, whatever methods are allowed. -/
theorem compile_safe {config : Config} {t : Text} {e : Expr}
    (accepted : compile config (.text t) = .ok e) :
    ∀ s, Tree.Within s e.toTree → SafeNode config t s := by
  obtain ⟨_, ⟨⟩, _, accepted⟩ := compile_eq_ok.1 accepted
  obtain ⟨_, denied, _, ⟨_, brackets⟩, _, _, read⟩ := compileTrimmed_eq_ok.1 accepted
  obtain ⟨ts, lexed, parsed⟩ := bind_eq_ok.1 read
  obtain ⟨d, _, derived⟩ := Expr.derives_of_parse parsed
  have laid := Token.lexed_of_lex lexed
  obtain ⟨l, r, padded, blank, _⟩ := Text.trim_infix t
  intro s within
  have grounded := Expr.derives_grounded derived s within
  obtain ⟨v, cs⟩ := s
  cases v with
  | member name => exact safeName_of_written laid denied grounded.1 grounded.2
  | call name =>
    obtain ⟨granted, property, written⟩ := grounded
    exact ⟨granted, safeName_of_written laid denied property written⟩
  | index key =>
    obtain ⟨child, sign, known, written⟩ := grounded
    refine ⟨child, ?_⟩
    rw [padded]
    exact (safeKey_of_written laid denied brackets known written).padded blank
  | literal | «variable» | not | binary => trivial

/-- A method of a keyed part of a variable, compared with a property. -/
theorem compile_safe_key :
    ∃ e, compile Config.default (.text (" __v0['a'].trim() === __v1.name" : String).toList) =
        .ok e ∧
      ∀ s, Tree.Within s e.toTree →
        SafeNode Config.default (" __v0['a'].trim() === __v1.name" : String).toList s := by
  have accepted :
      compile Config.default (.text (" __v0['a'].trim() === __v1.name" : String).toList) =
        .ok (.binary .strictEq (.call (.index 0 (.text ['a'])) ("trim" : String).toList)
          (.member (.variable 1) ("name" : String).toList)) :=
    eq_ok_of_toOption (by decide +kernel)
  exact ⟨_, accepted, compile_safe accepted⟩

end Gate
end BranchGate
