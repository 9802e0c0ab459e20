import BranchGate.Value

/-! Reading JSON. A number with a fraction or an exponent is a decimal, any other an integer of
any size; of two fields of one name the later value counts, in the place of the first. -/
namespace BranchGate.Value.Json

def isSpace (c : Char) : Bool := c == ' ' || c == '\t' || c == '\r' || c == '\n'

def skipSpace (s : Text) : Text := s.dropWhile isSpace

def hexDigit? (c : Char) : Option Nat :=
  if '0' ≤ c ∧ c ≤ '9' then some (c.toNat - '0'.toNat)
  else if 'a' ≤ c ∧ c ≤ 'f' then some (c.toNat - 'a'.toNat + 10)
  else if 'A' ≤ c ∧ c ≤ 'F' then some (c.toNat - 'A'.toNat + 10)
  else none

def escaped? : Char → Option Nat
  | '\x22' => some 0x22
  | '\\' => some 0x5C
  | '/' => some 0x2F
  | 'n' => some 0x0A
  | 'r' => some 0x0D
  | 't' => some 0x09
  | 'b' => some 0x08
  | 'f' => some 0x0C
  | _ => none

/-- The code units between the quotes and what follows the closing one. -/
def units : Text → Option (List Nat × Text)
  | [] => none
  | '\x22' :: rest => some ([], rest)
  | '\\' :: 'u' :: a :: b :: c :: d :: rest => do
    let high := (← hexDigit? a) * 16 + (← hexDigit? b)
    let low := (← hexDigit? c) * 16 + (← hexDigit? d)
    let unit := high * 256 + low
    let (more, after) ← units rest
    pure (unit :: more, after)
  | '\\' :: c :: rest => do
    let unit ← escaped? c
    let (more, after) ← units rest
    pure (unit :: more, after)
  | c :: rest => do
    if c = '\\' then none
    let (more, after) ← units rest
    pure (c.toNat :: more, after)

/-- Joins surrogate pairs. -/
def combine : List Nat → Text
  | high :: low :: rest =>
    if 0xD800 ≤ high ∧ high < 0xDC00 ∧ 0xDC00 ≤ low ∧ low < 0xE000 then
      Char.ofNat (0x10000 + (high - 0xD800) * 0x400 + (low - 0xDC00)) :: combine rest
    else Char.ofNat high :: combine (low :: rest)
  | [unit] => [Char.ofNat unit]
  | [] => []

/-- A string, after its opening quote. -/
def string (s : Text) : Option (Text × Text) :=
  (units s).map fun (us, rest) => (combine us, rest)

def digits (s : Text) : Text × Text := (s.takeWhile Char.isDigit, s.dropWhile Char.isDigit)

/-- The digits after a point, if there is one. -/
def fraction : Text → Option Text × Text
  | '.' :: rest => let (ds, after) := digits rest; (some ds, after)
  | s => (none, s)

def exponent (s : Text) : Option Int × Text :=
  match s with
  | e :: rest =>
    if e = 'e' ∨ e = 'E' then
      let (negative, rest) := match rest with
        | '-' :: r => (true, r)
        | '+' :: r => (false, r)
        | r => (false, r)
      let (ds, after) := digits rest
      let n : Int := Text.toNat ds
      (some (if negative then -n else n), after)
    else (none, s)
  | [] => (none, s)

def unsignedNumber (negative : Bool) (s : Text) : Option (Value × Text) :=
  let (whole, rest) := digits s
  if whole.isEmpty then none
  else
    let (point, rest) := fraction rest
    let (power, rest) := exponent rest
    match point, power with
    | none, none =>
      let n : Int := Text.toNat whole
      some (.integer (if negative then -n else n), rest)
    | _, _ =>
      let places := point.getD []
      let x := Binary64.ofDecimal negative (Text.toNat (whole ++ places))
        (power.getD 0 - (places.length : Int))
      some (.decimal x, rest)

def number : Text → Option (Value × Text)
  | '-' :: rest => unsignedNumber true rest
  | s => unsignedNumber false s

def keyword? (s : Text) : Option (Value × Text) :=
  match s with
  | 'n' :: 'u' :: 'l' :: 'l' :: rest => some (.null, rest)
  | 't' :: 'r' :: 'u' :: 'e' :: rest => some (.bool true, rest)
  | 'f' :: 'a' :: 'l' :: 's' :: 'e' :: rest => some (.bool false, rest)
  | _ => none

mutual

/-- One value and the rest; `fuel` bounds the steps, one a value. -/
def value : (fuel : Nat) → Text → Option (Value × Text)
  | 0, _ => none
  | fuel + 1, s =>
    match skipSpace s with
    | '\x22' :: rest => (string rest).map fun (t, after) => (.text t, after)
    | '[' :: rest =>
      match skipSpace rest with
      | ']' :: after => some (.list [], after)
      | inner => (items fuel inner).map fun (vs, after) => (.list vs, after)
    | '\x7b' :: rest =>
      match skipSpace rest with
      | '\x7d' :: after => some (.record [], after)
      | inner => (members fuel inner).map fun (fs, after) => (.record (Fields.ofPairs fs), after)
    | s => keyword? s <|> number s

def items : (fuel : Nat) → Text → Option (List Value × Text)
  | 0, _ => none
  | fuel + 1, s => do
    let (v, rest) ← value fuel s
    match skipSpace rest with
    | ',' :: rest =>
      let (vs, after) ← items fuel rest
      pure (v :: vs, after)
    | ']' :: after => pure ([v], after)
    | _ => none

def members : (fuel : Nat) → Text → Option (List (Text × Value) × Text)
  | 0, _ => none
  | fuel + 1, s =>
    match skipSpace s with
    | '\x22' :: rest => do
      let (name, rest) ← string rest
      match skipSpace rest with
      | ':' :: rest =>
        let (v, rest) ← value fuel rest
        match skipSpace rest with
        | ',' :: rest =>
          let (fs, after) ← members fuel rest
          pure ((name, v) :: fs, after)
        | '\x7d' :: after => pure ([(name, v)], after)
        | _ => none
      | _ => none
    | _ => none

end

/-- A whole text that is one value. Each value takes a character, so the length is fuel
enough. -/
def read? (s : Text) : Option Value :=
  match value (s.length + 1) s with
  | some (v, rest) => if (skipSpace rest).isEmpty then some v else none
  | none => none

end BranchGate.Value.Json
