import BranchGate.Expr.Printer
import BranchGate.Proofs.Branch.Variables
import Mathlib.Data.List.Dedup

/-! The variables that a condition is written with, and their indexes. An index is the number that
the digits of a name denote, so two names share an index when they differ in leading zeros, and only
then. -/
namespace BranchGate

namespace Text

/-- The digits of a number without the zeros that do not count. -/
def significant (digits : Text) : Text :=
  let rest := digits.dropWhile (· == '0')
  if rest.isEmpty then ['0'] else rest

variable {ds : Text}

theorem significant_cons_zero : significant ('0' :: ds) = significant ds := rfl

theorem significant_of_ne_zero {d : Char} (other : d ≠ '0') : significant (d :: ds) = d :: ds := by
  simp [significant, other]

theorem digitChar_of_isDigit {d : Char} (digit : d.isDigit = true) :
    d.toNat - '0'.toNat < 10 ∧ Nat.digitChar (d.toNat - '0'.toNat) = d := by
  have range := isDigit_range digit
  have zero : '0'.toNat = 48 := rfl
  have small : d.toNat - '0'.toNat < 10 := by omega
  refine ⟨small, Char.toNat_inj.1 ?_⟩
  rw [Nat.toNat_digitChar_of_lt_ten small]
  omega

/-- More digits after a number that is not zero are written after its own. -/
theorem toDigits_ofDigitChars {n : Nat} (positive : 0 < n) (digits : ∀ d ∈ ds, d.isDigit = true) :
    Nat.toDigits 10 (Nat.ofDigitChars 10 ds n) = Nat.toDigits 10 n ++ ds := by
  induction ds generalizing n with
  | nil => simp
  | cons d ds ih =>
    obtain ⟨digit, others⟩ := List.forall_mem_cons.1 digits
    obtain ⟨small, same⟩ := digitChar_of_isDigit digit
    rw [Nat.ofDigitChars_cons, ih (by omega) others,
      ← Nat.toDigits_append_toDigits (by decide) positive small,
      Nat.toDigits_of_lt_base small, same]
    simp

theorem ofNat_toNat (digits : ∀ d ∈ ds, d.isDigit = true) : ofNat (toNat ds) = significant ds := by
  induction ds with
  | nil => rfl
  | cons d ds ih =>
    obtain ⟨digit, others⟩ := List.forall_mem_cons.1 digits
    obtain ⟨small, same⟩ := digitChar_of_isDigit digit
    by_cases zero : d = '0'
    · subst zero
      exact ih others
    · have positive : 0 < d.toNat - '0'.toNat := by
        refine Nat.pos_of_ne_zero fun none => zero ?_
        rw [none] at same
        exact same.symm
      rw [significant_of_ne_zero zero, ofNat, toNat, Nat.ofDigitChars_cons, Nat.mul_zero,
        Nat.zero_add, toDigits_ofDigitChars positive others, Nat.toDigits_of_lt_base small, same]
      rfl

/-- Digits are zeros and then those that count. -/
theorem significant_suffix (filled : ds ≠ []) :
    ∃ zeros, ds = List.replicate zeros '0' ++ significant ds := by
  induction ds with
  | nil => exact absurd rfl filled
  | cons d ds ih =>
    by_cases zero : d = '0'
    · subst zero
      by_cases last : ds = []
      · exact ⟨0, by rw [last]; rfl⟩
      · obtain ⟨zeros, same⟩ := ih last
        refine ⟨zeros + 1, ?_⟩
        rw [significant_cons_zero, List.replicate_succ, List.cons_append, ← same]
    · exact ⟨0, by rw [significant_of_ne_zero zero]; rfl⟩

end Text

/-- The name of a variable without the zeros that do not count. -/
def significantName : Text → Text
  | '_' :: '_' :: 'v' :: digits => '_' :: '_' :: 'v' :: Text.significant digits
  | name => name

namespace Gate

/-- The names of variables that tokens are written with, in their order. -/
def variableNames (ts : List Token) : List Text :=
  ts.filterMap fun t => match t.lexeme with
    | .name n => if isVariable n then some n else none
    | _ => none

/-- The index of a variable, if the name is one. -/
def indexOf? (name : Text) : Option Nat := (Lexeme.name name).numbered?

variable {ts : List Token} {name : Text} {n : Nat}

theorem indexOf?_eq_some : indexOf? name = some n ↔ ∃ digits,
    name = '_' :: '_' :: 'v' :: digits ∧ Token.IsDigits digits ∧ Text.toNat digits = n := by
  simp only [indexOf?, Lexeme.numbered?_eq_some, Lexeme.name.injEq]

theorem significantName_of_index (index : indexOf? name = some n) :
    significantName name = variableName n := by
  obtain ⟨digits, rfl, isDigits, rfl⟩ := indexOf?_eq_some.1 index
  rw [significantName, ← Text.ofNat_toNat isDigits.2]
  rfl

theorem variableName_injective {m : Nat} (same : variableName m = variableName n) : m = n := by
  have digits : Text.ofNat m = Text.ofNat n := List.append_cancel_left same
  rw [← Text.toNat_ofNat m, digits, Text.toNat_ofNat]

/-- The numbers of variables that lexemes are written with. -/
abbrev numbers (ts : List Token) : List Nat := (ts.map Token.lexeme).filterMap Lexeme.numbered?

theorem map_indexOf? (ts : List Token) :
    (variableNames ts).map indexOf? = (numbers ts).map some := by
  induction ts with
  | nil => rfl
  | cons t ts ih =>
    rw [variableNames, List.filterMap_cons, ← variableNames, numbers, List.map_cons,
      List.filterMap_cons]
    cases lexeme : t.lexeme with
    | name n =>
      cases digits : variableDigits? n with
      | none => simpa [isVariable, digits, Lexeme.numbered?] using ih
      | some ds => simpa [isVariable, digits, Lexeme.numbered?, indexOf?] using ih
    | _ => exact ih

theorem index_of_mem {a : Text} (written : a ∈ variableNames ts) :
    ∃ n ∈ numbers ts, indexOf? a = some n := by
  have member : indexOf? a ∈ (variableNames ts).map indexOf? := List.mem_map_of_mem written
  rw [map_indexOf?] at member
  obtain ⟨n, used, same⟩ := List.mem_map.1 member
  exact ⟨n, used, same.symm⟩

theorem name_of_index (used : n ∈ numbers ts) : ∃ a ∈ variableNames ts, indexOf? a = some n := by
  have member : some n ∈ (numbers ts).map some := List.mem_map_of_mem used
  rwa [← map_indexOf?, List.mem_map] at member

theorem mem_significantNames : name ∈ (variableNames ts).map significantName ↔
    ∃ n ∈ numbers ts, variableName n = name := by
  rw [List.mem_map]
  constructor
  · rintro ⟨a, written, rfl⟩
    obtain ⟨n, used, index⟩ := index_of_mem written
    exact ⟨n, used, (significantName_of_index index).symm⟩
  · rintro ⟨n, used, rfl⟩
    obtain ⟨a, written, index⟩ := name_of_index used
    exact ⟨a, written, significantName_of_index index⟩

/-- Names and the indexes that they get. -/
structure Indexed (names : List Text) (used : List Nat) : Prop where
  /-- There are as many indexes as names that differ in more than leading zeros. -/
  count : (names.map significantName).dedup.length = used.length
  /-- Every index is written, maybe after zeros. -/
  written : ∀ n ∈ used, ∃ zeros,
    '_' :: '_' :: 'v' :: (List.replicate zeros '0' ++ Text.ofNat n) ∈ names
  indexed : ∀ a ∈ names, ∃ n ∈ used, indexOf? a = some n
  shared : ∀ a ∈ names, ∀ b ∈ names,
    indexOf? a = indexOf? b ↔ significantName a = significantName b
  /-- Where no name has such zeros, each has an index of its own. -/
  plain : (∀ a ∈ names, significantName a = a) →
    names.dedup.length = used.length ∧ ∀ n ∈ used, variableName n ∈ names

theorem indexed_of_members {used : List Nat} (distinct : used.Nodup)
    (members : ∀ n, n ∈ used ↔ n ∈ numbers ts) : Indexed (variableNames ts) used := by
  have count : ((variableNames ts).map significantName).dedup.length = used.length := by
    have same : ((variableNames ts).map significantName).dedup.Perm (used.map variableName) := by
      refine (List.perm_ext_iff_of_nodup (List.nodup_dedup _)
        (distinct.map fun _ _ => variableName_injective)).2 fun name => ?_
      rw [List.mem_dedup, mem_significantNames, List.mem_map]
      simp only [members]
    rw [same.length_eq, List.length_map]
  refine ⟨count, fun n known => ?_, fun a written => ?_, fun a written b written' => ?_,
    fun plain => ?_⟩
  · obtain ⟨a, written, index⟩ := name_of_index ((members n).1 known)
    obtain ⟨digits, rfl, isDigits, rfl⟩ := indexOf?_eq_some.1 index
    obtain ⟨zeros, same⟩ := Text.significant_suffix isDigits.1
    refine ⟨zeros, ?_⟩
    rwa [Text.ofNat_toNat isDigits.2, ← same]
  · obtain ⟨n, known, index⟩ := index_of_mem written
    exact ⟨n, (members n).2 known, index⟩
  · obtain ⟨m, _, index⟩ := index_of_mem written
    obtain ⟨n, _, index'⟩ := index_of_mem written'
    rw [index, index', significantName_of_index index, significantName_of_index index',
      Option.some.injEq]
    exact ⟨congrArg variableName, variableName_injective⟩
  · have unchanged : (variableNames ts).map significantName = variableNames ts := by
      rw [List.map_congr_left plain, List.map_id']
    rw [unchanged] at count
    refine ⟨count, fun n known => ?_⟩
    rw [← unchanged]
    exact mem_significantNames.2 ⟨n, (members n).1 known, rfl⟩

/-- An accepted condition has an index for each variable that it is written with, one for all names
that differ in leading zeros only. -/
theorem indexes_up_to_zeros {config : Config} {t : Text} {e : Expr}
    (accepted : compile config (.text t) = .ok e) : ∃ ts, Token.lex (Text.trim t) = .ok ts ∧
      Indexed (variableNames ts) e.usedVariables := by
  obtain ⟨ts, d, lexed, _, _, derived⟩ := derives_of_compileTrimmed (compile_text_eq_ok.1 accepted)
  refine ⟨ts, lexed, indexed_of_members ?_ fun n => ?_⟩
  · exact (pairwise_lt_ascending _).imp Nat.ne_of_lt
  · rw [Expr.mem_usedVariables, ← Expr.variables_of_derives derived]

theorem indexes_up_to_zeros_shared :
    (∃ e, compile Config.default (.text ("__v010 > __v2 || __v10" : String).toList) = .ok e ∧
      e.usedVariables = [2, 10]) ∧
    Indexed [("__v010" : String).toList, ("__v2" : String).toList, ("__v10" : String).toList]
      [2, 10] := by
  have accepted : compile Config.default (.text ("__v010 > __v2 || __v10" : String).toList) =
      .ok (.binary .or (.binary .gt (.variable 10) (.variable 2)) (.variable 10)) :=
    eq_ok_of_toOption (by decide +kernel)
  have known : Token.lex (Text.trim ("__v010 > __v2 || __v10" : String).toList) = .ok [
      ⟨.name ("__v010" : String).toList, ("__v010" : String).toList, 0⟩, ⟨.punct .gt, ['>'], 7⟩,
      ⟨.name ("__v2" : String).toList, ("__v2" : String).toList, 9⟩,
      ⟨.punct .or, ("||" : String).toList, 14⟩,
      ⟨.name ("__v10" : String).toList, ("__v10" : String).toList, 17⟩] :=
    eq_ok_of_toOption (by decide +kernel)
  have used : Expr.usedVariables (.binary .or (.binary .gt (.variable 10) (.variable 2))
      (.variable 10)) = [2, 10] := by decide +kernel
  obtain ⟨ts, lexed, indexed⟩ := indexes_up_to_zeros accepted
  cases known.symm.trans lexed
  rw [used] at indexed
  exact ⟨⟨_, accepted, used⟩, indexed⟩

/-- Two names that differ in a zero have one index. -/
theorem indexes_not_distinct : ¬∀ (t : Text) (e : Expr) (ts : List Token),
    compile Config.default (.text t) = .ok e → Token.lex (Text.trim t) = .ok ts →
      (variableNames ts).dedup.length = e.usedVariables.length ∧
        ∀ n ∈ e.usedVariables, variableName n ∈ variableNames ts := by
  intro distinct
  have accepted : compile Config.default (.text ("__v0 == __v00" : String).toList) =
      .ok (.binary .looseEq (.variable 0) (.variable 0)) := eq_ok_of_toOption (by decide +kernel)
  have lexed : Token.lex (Text.trim ("__v0 == __v00" : String).toList) = .ok [
      ⟨.name ("__v0" : String).toList, ("__v0" : String).toList, 0⟩,
      ⟨.punct .looseEq, ("==" : String).toList, 5⟩,
      ⟨.name ("__v00" : String).toList, ("__v00" : String).toList, 8⟩] :=
    eq_ok_of_toOption (by decide +kernel)
  have count := (distinct _ _ _ accepted lexed).1
  revert count
  decide +kernel

end Gate
end BranchGate
