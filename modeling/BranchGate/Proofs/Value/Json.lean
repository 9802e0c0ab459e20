import BranchGate.Proofs.Fields
import BranchGate.Proofs.Lists
import BranchGate.Proofs.Token.Layout
import BranchGate.Proofs.Value.Integers
import BranchGate.Value.Json.Reader

/-! JSON as it is written and read. What is written stands on one line, for it holds no control
character; and reading gives the value back, whatever its texts and names hold. -/
namespace BranchGate.Value

/-- Data that JSON holds exactly: no decimals, and no name twice in one record. -/
inductive Exact : Value → Prop
  | null : Exact .null
  | bool (b) : Exact (.bool b)
  | integer (n) : Exact (.integer n)
  | text (t) : Exact (.text t)
  | list {items} : (∀ v ∈ items, Exact v) → Exact (.list items)
  | record {fields} : (∀ f ∈ fields, Exact f.2) → (Fields.names fields).Nodup →
      Exact (.record fields)

theorem Exact.fields {fields : Fields Value} (exact : Exact (.record fields)) :
    (∀ f ∈ fields, Exact f.2) ∧ fields.names.Nodup := by
  cases exact with
  | record all distinct => exact ⟨all, distinct⟩

/-- No control character, and so no line break. -/
def OneLine (t : Text) : Prop := ∀ c ∈ t, 0x20 ≤ c.toNat

/-- Nothing that would prolong a number. -/
def Ends (rest : Text) : Prop :=
  ∀ c ∈ rest.head?, c.isDigit = false ∧ c ≠ '.' ∧ c ≠ 'e' ∧ c ≠ 'E'

section Strings

variable {c a b : Char} {rest : Text} {unit high low : Nat}

/-- A character is written as itself, by a letter, or by four digits. -/
theorem jsonChar_cases (c : Char) :
    (c ≠ '\x22' ∧ c ≠ '\\' ∧ 0x20 ≤ c.toNat ∧ jsonChar c = [c]) ∨
    (∃ letter, letter ≠ 'u' ∧ Json.escaped? letter = some c.toNat ∧
      jsonChar c = ['\\', letter]) ∨
    ∃ a b high low, Json.hexDigit? a = some high ∧ Json.hexDigit? b = some low ∧
      high * 16 + low = c.toNat ∧ jsonChar c = ['\\', 'u', '0', '0', a, b] := by
  have code : ∀ n < 0x20, Json.hexDigit? (n / 16).digitChar = some (n / 16) ∧
      Json.hexDigit? (n % 16).digitChar = some (n % 16) ∧
      Text.hex 4 n = ['0', '0', (n / 16).digitChar, (n % 16).digitChar] := by decide
  unfold jsonChar
  split_ifs with quote backslash line back tab erase feed control
  · exact .inr (.inl ⟨'\x22', by decide, by rw [quote]; rfl, rfl⟩)
  · exact .inr (.inl ⟨'\\', by decide, by rw [backslash]; rfl, rfl⟩)
  · exact .inr (.inl ⟨'n', by decide, by rw [line]; rfl, rfl⟩)
  · exact .inr (.inl ⟨'r', by decide, by rw [back]; rfl, rfl⟩)
  · exact .inr (.inl ⟨'t', by decide, by rw [tab]; rfl, rfl⟩)
  · exact .inr (.inl ⟨'b', by decide, by rw [erase]; rfl, rfl⟩)
  · exact .inr (.inl ⟨'f', by decide, by rw [feed]; rfl, rfl⟩)
  · obtain ⟨first, second, digits⟩ := code c.toNat control
    exact .inr (.inr ⟨_, _, _, _, first, second, Nat.div_add_mod' _ _, by rw [digits]; rfl⟩)
  · exact .inl ⟨quote, backslash, Nat.le_of_not_lt control, rfl⟩

theorem units_plain (quote : c ≠ '\x22') (backslash : c ≠ '\\') :
    Json.units (c :: rest) = (Json.units rest).map fun (us, after) => (c.toNat :: us, after) := by
  rw [Json.units, if_neg backslash]
  · cases Json.units rest with
    | none => rfl
    | some read => rfl
  · exact quote
  · rintro _ _ _ _ _ rfl
    exact absurd rfl backslash
  · intro _ _ same
    exact absurd same backslash

theorem units_letter (named : c ≠ 'u') (known : Json.escaped? c = some unit) :
    Json.units ('\\' :: c :: rest) =
      (Json.units rest).map fun (us, after) => (unit :: us, after) := by
  rw [Json.units, known]
  · cases Json.units rest with
    | none => rfl
    | some read => rfl
  · rintro _ _ _ _ _ same
    exact absurd same named

theorem units_code (first : Json.hexDigit? a = some high) (second : Json.hexDigit? b = some low) :
    Json.units ('\\' :: 'u' :: '0' :: '0' :: a :: b :: rest) =
      (Json.units rest).map fun (us, after) => ((high * 16 + low) :: us, after) := by
  have zero : Json.hexDigit? '0' = some 0 := rfl
  rw [Json.units, zero, first, second]
  cases Json.units rest with
  | none => rfl
  | some read => simp

/-- A written character reads as its code point. -/
theorem units_jsonChar (c : Char) (rest : Text) : Json.units (jsonChar c ++ rest) =
    (Json.units rest).map fun (us, after) => (c.toNat :: us, after) := by
  rcases jsonChar_cases c with ⟨quote, backslash, -, written⟩ | ⟨letter, named, known, written⟩ |
    ⟨a, b, high, low, first, second, value, written⟩
  · rw [written]
    exact units_plain quote backslash
  · rw [written]
    exact units_letter named known
  · rw [written, ← value]
    exact units_code first second

theorem units_jsonText (t rest : Text) :
    Json.units (t.flatMap jsonChar ++ '\x22' :: rest) = some (t.map Char.toNat, rest) := by
  induction t with
  | nil => rfl
  | cons c t ih =>
    rw [List.flatMap_cons, List.append_assoc, units_jsonChar, ih]
    rfl

/-- Code points are no halves of a pair, so none are joined. -/
theorem combine_toNat (t : Text) : Json.combine (t.map Char.toNat) = t := by
  induction t with
  | nil => rfl
  | cons c t ih =>
    have whole : ¬ (0xD800 ≤ c.toNat ∧ c.toNat < 0xDC00) := by
      have valid := c.valid
      simp only [UInt32.isValidChar, Nat.isValidChar] at valid
      have same : c.val.toNat = c.toNat := rfl
      omega
    -- Two units are looked at together, so a last one is apart.
    cases t with
    | nil => exact congrArg (· :: []) (Char.ofNat_toNat c)
    | cons d t =>
      rw [List.map_cons, List.map_cons, Json.combine,
        if_neg fun paired => whole ⟨paired.1, paired.2.1⟩, ← List.map_cons, ih, Char.ofNat_toNat]

theorem string_jsonText (t rest : Text) :
    Json.string (t.flatMap jsonChar ++ '\x22' :: rest) = some (t, rest) := by
  rw [Json.string, units_jsonText]
  exact congrArg (fun read => some (read, rest)) (combine_toNat t)

theorem OneLine.append {s t : Text} (first : OneLine s) (second : OneLine t) :
    OneLine (s ++ t) := List.forall_mem_append.2 ⟨first, second⟩

theorem OneLine.cons {t : Text} (first : 0x20 ≤ c.toNat) (rest : OneLine t) : OneLine (c :: t) :=
  List.forall_mem_cons.2 ⟨first, rest⟩

end Strings

section Numbers

variable {rest tail : Text} {c : Char} {fuel n : Nat}

theorem fraction_ends (ends : Ends rest) : Json.fraction rest = (none, rest) := by
  cases rest with
  | nil => rfl
  | cons c tail =>
    rw [Json.fraction]
    rintro after ⟨⟩
    exact absurd rfl (ends '.' rfl).2.1

theorem exponent_ends (ends : Ends rest) : Json.exponent rest = (none, rest) := by
  cases rest with
  | nil => rfl
  | cons c tail =>
    obtain ⟨-, -, small, large⟩ := ends c rfl
    exact if_neg (not_or.2 ⟨small, large⟩)

theorem unsignedNumber_ofNat (negative : Bool) (n : Nat) (ends : Ends rest) :
    Json.unsignedNumber negative (Text.ofNat n ++ rest) =
      some (.integer (if negative then -(n : Int) else n), rest) := by
  obtain ⟨filled, digits⟩ := Token.isDigits_ofNat n
  obtain ⟨taken, left⟩ := Token.takeWhile_append_stop digits fun c head => (ends c head).1
  rw [Json.unsignedNumber, Json.digits, taken, left]
  simp only [fraction_ends ends, exponent_ends ends, Text.toNat_ofNat, List.isEmpty_iff, filled,
    if_false]

theorem number_ofInt (n : Int) (ends : Ends rest) :
    Json.number (Text.ofInt n ++ rest) = some (.integer n, rest) := by
  cases n with
  | ofNat n =>
    -- The sign is looked for first, and digits have none.
    have unsigned (tail : Text) : Text.ofInt (.ofNat n) ++ rest ≠ '-' :: tail := by
      intro same
      obtain ⟨d, more, spelled, digit⟩ := (Token.isDigits_ofNat n).cons
      rw [Text.ofInt, spelled] at same
      obtain rfl : d = '-' := (List.cons.inj same).1
      cases digit
    rw [Json.number]
    · exact unsignedNumber_ofNat false n ends
    · exact unsigned
  | negSucc n => exact unsignedNumber_ofNat true (n + 1) ends

theorem ofInt_head (n : Int) :
    ∃ c tail, Text.ofInt n = c :: tail ∧ (c.isDigit = true ∨ c = '-') := by
  cases n with
  | ofNat n =>
    obtain ⟨c, tail, spelled, digit⟩ := (Token.isDigits_ofNat n).cons
    exact ⟨c, tail, spelled, .inl digit⟩
  | negSucc n => exact ⟨'-', _, rfl, .inr rfl⟩

end Numbers

section Forms

variable {s rest tail : Text} {c : Char} {fuel : Nat}

theorem skipSpace_cons (ink : Json.isSpace c = false) : Json.skipSpace (c :: tail) = c :: tail := by
  simp [Json.skipSpace, ink]

theorem isSpace_of_number (start : c.isDigit = true ∨ c = '-') : Json.isSpace c = false := by
  rcases start with digit | rfl
  · refine Bool.eq_false_iff.2 fun space => ?_
    simp only [Json.isSpace, Bool.or_eq_true, beq_iff_eq] at space
    rcases space with ((rfl | rfl) | rfl) | rfl <;> cases digit
  · rfl

theorem value_number (start : c.isDigit = true ∨ c = '-') :
    Json.value (fuel + 1) (c :: tail) = Json.number (c :: tail) := by
  have other : c ≠ '\x22' ∧ c ≠ '[' ∧ c ≠ '\x7b' ∧ c ≠ 'n' ∧ c ≠ 't' ∧ c ≠ 'f' := by
    rcases start with digit | rfl
    · refine ⟨?_, ?_, ?_, ?_, ?_, ?_⟩ <;> (rintro rfl; cases digit)
    · decide
  obtain ⟨quote, list, record, null, true, false⟩ := other
  rw [Json.value, skipSpace_cons (isSpace_of_number start)]
  have keyword : Json.keyword? (c :: tail) = none := by
    rw [Json.keyword?]
    · rintro _ ⟨⟩; exact null rfl
    · rintro _ ⟨⟩; exact true rfl
    · rintro _ ⟨⟩; exact false rfl
  split
  next same => exact absurd (List.cons.inj same).1 quote
  next same => exact absurd (List.cons.inj same).1 list
  next same => exact absurd (List.cons.inj same).1 record
  next => rw [keyword]; rfl

theorem value_list (ink : Json.skipSpace s = s) (filled : ∀ after, s ≠ ']' :: after) :
    Json.value (fuel + 1) ('[' :: s) =
      (Json.items fuel s).map fun (vs, after) => (.list vs, after) := by
  rw [Json.value, skipSpace_cons rfl]
  simp only [ink]

theorem value_record (ink : Json.skipSpace s = s) (filled : ∀ after, s ≠ '\x7d' :: after) :
    Json.value (fuel + 1) ('\x7b' :: s) =
      (Json.members fuel s).map fun (fs, after) => (.record (Fields.ofPairs fs), after) := by
  rw [Json.value, skipSpace_cons rfl]
  simp only [ink]

theorem value_text (t : Text) :
    Json.value (fuel + 1) (jsonText t ++ rest) = some (.text t, rest) := by
  have read := string_jsonText t rest
  rw [jsonText, List.cons_append, List.append_assoc, Json.value, skipSpace_cons rfl]
  exact congrArg (Option.map fun read => (Value.text read.1, read.2)) read

end Forms

section Reading

variable {v : Value} {items : List Value} {fields : Fields Value} {t rest : Text}
  {parts : List Text} {fuel : Nat}

/-- A text reads as a value, whatever comes after. -/
def Reads (v : Value) (t : Text) : Prop :=
  ∀ fuel rest, t.length ≤ fuel → Ends rest → Json.value fuel (t ++ rest) = some (v, rest)

/-- A text reads as a name and a value. -/
def ReadsField (f : Text × Value) (part : Text) : Prop :=
  ∃ t, part = jsonText f.1 ++ ':' :: t ∧ Reads f.2 t

/-- What is written takes a step to read. -/
theorem reads_of_succ (filled : 0 < t.length)
    (step : ∀ fuel rest, t.length ≤ fuel + 1 → Ends rest →
      Json.value (fuel + 1) (t ++ rest) = some (v, rest)) : Reads v t := by
  intro fuel rest enough ends
  obtain ⟨fuel, rfl⟩ := Nat.exists_eq_add_one.2 (Nat.lt_of_lt_of_le filled enough)
  exact step fuel rest enough ends

theorem ends_cons {c : Char} (mark : c = ',' ∨ c = ']' ∨ c = '\x7d') : Ends (c :: rest) := by
  rintro _ ⟨⟩
  rcases mark with rfl | rfl | rfl <;> decide

theorem json_list_eq_some : json (.list items) = some t ↔ ∃ parts,
    List.Forall₂ (fun v part => json v = some part) items parts ∧
      '[' :: (Text.join "," parts ++ [']']) = t := by
  rw [json_list, Option.map_eq_some_iff]
  simp only [mapM_eq_some]

theorem json_record_eq_some : json (.record fields) = some t ↔ ∃ parts,
    List.Forall₂ (fun f part => ∃ t, json f.2 = some t ∧ jsonText f.1 ++ ':' :: t = part)
      fields parts ∧ '\x7b' :: (Text.join "," parts ++ ['\x7d']) = t := by
  rw [json_record, Option.map_eq_some_iff]
  simp only [mapM_eq_some, Option.map_eq_some_iff]

theorem Exact.head (exact : Exact v) (written : json v = some t) :
    ∃ c tail, t = c :: tail ∧ Json.isSpace c = false ∧ c ≠ ']' := by
  cases exact with
  | null => exact ⟨'n', _, (Option.some.inj written).symm, rfl, by decide⟩
  | bool b => cases b <;> exact ⟨_, _, (Option.some.inj written).symm, rfl, by decide⟩
  | integer n =>
    obtain ⟨c, tail, digits, start⟩ := ofInt_head n
    refine ⟨c, tail, (Text.ofInt?_eq_some written).trans digits, isSpace_of_number start, ?_⟩
    rintro rfl
    rcases start with digit | minus
    · cases digit
    · cases minus
  | text t => exact ⟨'\x22', _, (Option.some.inj written).symm, rfl, by decide⟩
  | list =>
    obtain ⟨_, _, rfl⟩ := json_list_eq_some.1 written
    exact ⟨'[', _, rfl, rfl, by decide⟩
  | record =>
    obtain ⟨_, _, rfl⟩ := json_record_eq_some.1 written
    exact ⟨'\x7b', _, rfl, rfl, by decide⟩

theorem skipSpace_mark {c : Char} (mark : c = ',' ∨ c = ']' ∨ c = '\x7d') :
    Json.skipSpace (c :: rest) = c :: rest := by
  rcases mark with rfl | rfl | rfl <;> rfl

/-- The reader past an item. -/
theorem items_item (reads : Reads v t) (enough : t.length ≤ fuel) {c : Char}
    (mark : c = ',' ∨ c = ']') :
    Json.items (fuel + 1) (t ++ c :: rest) =
      if c = ',' then (Json.items fuel rest).map fun (vs, after) => (v :: vs, after)
      else some ([v], rest) := by
  have read := reads fuel (c :: rest) enough (ends_cons (mark.imp_right .inl))
  rw [Json.items, read]
  simp only [Option.bind_eq_bind, Option.bind_some]
  rcases mark with rfl | rfl
  · rw [skipSpace_mark (.inl rfl), if_pos rfl]
    change (Json.items fuel rest).bind _ = _
    cases Json.items fuel rest with
    | none => rfl
    | some read => rfl
  · rw [skipSpace_mark (.inr (.inl rfl)), if_neg (by decide)]
    rfl

theorem items_json (each : List.Forall₂ Reads items parts) (filled : items ≠ [])
    (enough : (Text.join "," parts).length < fuel) :
    Json.items fuel (Text.join "," parts ++ ']' :: rest) = some (items, rest) := by
  -- Each item takes a step and at least its comma from the text, so the fuel stays above the length.
  induction each generalizing fuel with
  | nil => exact absurd rfl filled
  | @cons v t others more first each ih =>
    obtain ⟨fuel, rfl⟩ := Nat.exists_eq_add_one.2 (Nat.zero_lt_of_lt enough)
    cases each with
    | nil =>
      rw [Text.join] at enough ⊢
      rw [items_item first (Nat.le_of_lt_succ enough) (.inr rfl)]
      rfl
    | @cons w u others more second each =>
      have length : (Text.join "," (t :: u :: more)).length =
          t.length + (Text.join "," (u :: more)).length + 1 := by
        simp only [Text.join, List.length_append]
        have : ",".toList.length = 1 := rfl
        omega
      rw [length] at enough
      have inner := ih (List.cons_ne_nil _ _) (show _ < fuel by omega)
      have written : Text.join "," (t :: u :: more) ++ ']' :: rest =
          t ++ ',' :: (Text.join "," (u :: more) ++ ']' :: rest) := by
        simp [Text.join]
      rw [written, items_item first (by omega) (.inl rfl), if_pos rfl, inner]
      rfl

/-- The reader past a name and its value. -/
theorem members_field {name : Text} (reads : Reads v t) (enough : t.length ≤ fuel) {c : Char}
    (mark : c = ',' ∨ c = '\x7d') :
    Json.members (fuel + 1) (jsonText name ++ ':' :: t ++ c :: rest) =
      if c = ',' then (Json.members fuel rest).map fun (fs, after) => ((name, v) :: fs, after)
      else some ([(name, v)], rest) := by
  have written : jsonText name ++ ':' :: t ++ c :: rest =
      '\x22' :: (name.flatMap jsonChar ++ '\x22' :: ':' :: (t ++ c :: rest)) := by
    simp [jsonText]
  have named := string_jsonText name (':' :: (t ++ c :: rest))
  have colon (tail : Text) : Json.skipSpace (':' :: tail) = ':' :: tail := rfl
  have read := reads fuel (c :: rest) enough (ends_cons (mark.imp_right .inr))
  rw [Json.members, written, skipSpace_cons rfl]
  simp only [named, Option.bind_eq_bind, Option.bind_some, colon, read]
  rcases mark with rfl | rfl
  · rw [skipSpace_mark (.inl rfl), if_pos rfl]
    change (Json.members fuel rest).bind _ = _
    cases Json.members fuel rest with
    | none => rfl
    | some read => rfl
  · rw [skipSpace_mark (.inr (.inr rfl)), if_neg (by decide)]
    rfl

theorem members_json (each : List.Forall₂ ReadsField fields parts) (filled : fields ≠ [])
    (enough : (Text.join "," parts).length < fuel) :
    Json.members fuel (Text.join "," parts ++ '\x7d' :: rest) = some (fields, rest) := by
  induction each generalizing fuel with
  | nil => exact absurd rfl filled
  | @cons f part others more first each ih =>
    obtain ⟨fuel, rfl⟩ := Nat.exists_eq_add_one.2 (Nat.zero_lt_of_lt enough)
    obtain ⟨t, rfl, first⟩ := first
    cases each with
    | nil =>
      rw [Text.join] at enough ⊢
      rw [List.length_append, List.length_cons] at enough
      rw [members_field first (by omega) (.inr rfl)]
      rfl
    | @cons g part others more second each =>
      have length : (Text.join "," ((jsonText f.1 ++ ':' :: t) :: part :: more)).length =
          (jsonText f.1).length + t.length + (Text.join "," (part :: more)).length + 2 := by
        simp only [Text.join, List.length_append, List.length_cons]
        have : ",".toList.length = 1 := rfl
        omega
      rw [length] at enough
      have inner := ih (List.cons_ne_nil _ _) (show _ < fuel by omega)
      have written : Text.join "," ((jsonText f.1 ++ ':' :: t) :: part :: more) ++ '\x7d' :: rest =
          jsonText f.1 ++ ':' :: t ++ ',' :: (Text.join "," (part :: more) ++ '\x7d' :: rest) := by
        simp [Text.join]
      rw [written, members_field first (by omega) (.inl rfl), if_pos rfl, inner]
      rfl

theorem join_cons (separator t : Text) (others : List Text) :
    ∃ more, Text.join separator (t :: others) = t ++ more := by
  cases others with
  | nil => exact ⟨[], (List.append_nil t).symm⟩
  | cons u others => exact ⟨separator ++ Text.join separator (u :: others), List.append_assoc ..⟩

theorem reads_list (each : List.Forall₂ Reads items parts)
    (heads : ∀ t ∈ parts, ∃ c tail, t = c :: tail ∧ Json.isSpace c = false ∧ c ≠ ']') :
    Reads (.list items) ('[' :: (Text.join "," parts ++ [']'])) := by
  refine reads_of_succ (Nat.succ_pos _) fun fuel rest enough _ => ?_
  cases each with
  | nil => rfl
  | @cons v t others more first each =>
    obtain ⟨c, tail, written, ink, mark⟩ := heads t List.mem_cons_self
    obtain ⟨after, joined⟩ := join_cons "," t more
    have begun : Text.join "," (t :: more) ++ ']' :: rest = c :: (tail ++ after ++ ']' :: rest) := by
      rw [joined, written]
      rfl
    rw [List.length_cons, List.length_append] at enough
    have inner : Json.items fuel (Text.join "," (t :: more) ++ ']' :: rest) =
        some (v :: others, rest) :=
      items_json (.cons first each) (List.cons_ne_nil _ _)
        (Nat.lt_of_succ_le (Nat.le_of_succ_le_succ enough))
    rw [List.cons_append, List.append_assoc, List.singleton_append, value_list, inner]
    · rfl
    · rw [begun, skipSpace_cons ink]
    · intro after same
      exact mark (List.cons.inj (begun.symm.trans same)).1

theorem reads_record (each : List.Forall₂ ReadsField fields parts)
    (distinct : (Fields.names fields).Nodup) :
    Reads (.record fields) ('\x7b' :: (Text.join "," parts ++ ['\x7d'])) := by
  refine reads_of_succ (Nat.succ_pos _) fun fuel rest enough _ => ?_
  cases each with
  | nil => rfl
  | @cons f part others more first each =>
    have ⟨t, written, _⟩ := first
    obtain ⟨after, joined⟩ := join_cons "," part more
    obtain ⟨tail, begun⟩ : ∃ tail, Text.join "," (part :: more) ++ '\x7d' :: rest =
        '\x22' :: tail := by
      rw [joined, written]
      exact ⟨_, rfl⟩
    rw [List.length_cons, List.length_append] at enough
    have inner : Json.members fuel (Text.join "," (part :: more) ++ '\x7d' :: rest) =
        some (f :: others, rest) :=
      members_json (.cons first each) (List.cons_ne_nil _ _)
        (Nat.lt_of_succ_le (Nat.le_of_succ_le_succ enough))
    rw [List.cons_append, List.append_assoc, List.singleton_append, value_record, inner]
    · exact congrArg (fun fields => some (record fields, rest)) (Fields.ofPairs_of_nodup distinct)
    · rw [begun, skipSpace_cons rfl]
    · intro after same
      exact absurd (List.cons.inj (begun.symm.trans same)).1 (by decide)

/-- What is written of an exact value reads back as the value. -/
theorem Exact.reads (exact : Exact v) (written : json v = some t) : Reads v t := by
  induction exact generalizing t with
  | null =>
    cases written
    exact reads_of_succ (Nat.succ_pos _) fun _ _ _ _ => rfl
  | bool b =>
    cases b <;> cases written <;> exact reads_of_succ (Nat.succ_pos _) fun _ _ _ _ => rfl
  | integer n =>
    obtain ⟨c, tail, digits, start⟩ := ofInt_head n
    have spelled : t = c :: tail := (Text.ofInt?_eq_some written).trans digits
    refine reads_of_succ (by rw [spelled]; exact Nat.succ_pos _) fun fuel rest _ ends => ?_
    rw [spelled, List.cons_append, value_number start, ← List.cons_append, ← digits,
      number_ofInt n ends]
  | text t =>
    cases written
    exact reads_of_succ (Nat.succ_pos _) fun _ _ _ _ => value_text t
  | list exact each =>
    obtain ⟨parts, parted, rfl⟩ := json_list_eq_some.1 written
    refine reads_list ?_ fun t member => ?_
    · exact ((List.forall₂_and_left _ _).2 ⟨each, parted⟩).imp fun _ _ part => part.1 part.2
    · obtain ⟨v, inside, part⟩ := forall₂_exists_right parted.flip t member
      exact (exact v inside).head part
  | record _ distinct each =>
    obtain ⟨parts, parted, rfl⟩ := json_record_eq_some.1 written
    refine reads_record ?_ distinct
    refine ((List.forall₂_and_left _ _).2 ⟨each, parted⟩).imp ?_
    rintro f _ ⟨reads, t, part, rfl⟩
    exact ⟨t, rfl, reads part⟩

theorem read?_json (exact : Exact v) (written : json v = some t) : Json.read? t = some v := by
  have read := exact.reads written (t.length + 1) [] (Nat.le_succ _) nofun
  rw [List.append_nil] at read
  rw [Json.read?, read]
  rfl

end Reading

section OneLine

variable {v : Value} {t : Text} {parts : List Text}

end OneLine

end BranchGate.Value
