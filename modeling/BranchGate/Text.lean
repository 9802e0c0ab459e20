/-! Texts as sequences of code points, and the ASCII classes in which the condition language
is written. Lengths and positions count code points. -/
namespace BranchGate

abbrev Text := List Char

instance : Coe String Text := ⟨String.toList⟩

/-- The most digits that a whole number may be written with. -/
def digitLimit : Nat := 4300

/-- Ten to a power, by the power of natural numbers and not that of monoids. -/
def powerOfTen (k : Nat) : Nat := Nat.pow 10 k

theorem powerOfTen_le {k k' : Nat} (le : k ≤ k') : powerOfTen k ≤ powerOfTen k' :=
  Nat.pow_le_pow_right (by decide) le

namespace Text

/-- Blanks are what trimming drops and what may stand around the parts of an indexing or a
call; U+200B, U+2060 and U+FEFF are none. -/
def isBlank (c : Char) : Bool :=
  let n := c.toNat
  (0x09 ≤ n && n ≤ 0x0D) || (0x1C ≤ n && n ≤ 0x20) || n == 0x85 || n == 0xA0 ||
    n == 0x1680 || (0x2000 ≤ n && n ≤ 0x200A) || n == 0x2028 || n == 0x2029 || n == 0x202F ||
    n == 0x205F || n == 0x3000

/-- Layout separates tokens: space, tab, carriage return and line feed only. -/
def isLayout (c : Char) : Bool :=
  c == ' ' || c == '\t' || c == '\r' || c == '\n'

def isNameStart (c : Char) : Bool := c.isAlpha || c == '_' || c == '$'

def isNameChar (c : Char) : Bool := isNameStart c || c.isDigit

/-- ASCII identifiers: a letter, `_` or `$`, then also digits. -/
def isName : Text → Bool
  | [] => false
  | c :: rest => isNameStart c && rest.all isNameChar

def trimRight (t : Text) : Text := (t.reverse.dropWhile isBlank).reverse

def trim (t : Text) : Text := trimRight (t.dropWhile isBlank)

def allBlank (t : Text) : Bool := t.all isBlank

def ofNat (n : Nat) : Text := Nat.toDigits 10 n

def ofInt : Int → Text
  | .ofNat n => ofNat n
  | .negSucc n => '-' :: ofNat (n + 1)

/-- The number as text, if it has not too many digits. -/
def ofInt? (n : Int) : Option Text :=
  if digitLimit < (ofNat n.natAbs).length then none else some (ofInt n)

/-- What is said of a number with too many digits; `found` tells how many, where they are known. -/
def tooManyDigits (found : Text) : Text :=
  "Exceeds the limit (" ++ ofNat digitLimit ++ " digits) for integer string conversion" ++ found ++
    "; use sys.set_int_max_str_digits() to increase the limit"

/-- What is said of a number that cannot be written. -/
def unwritable : Text := tooManyDigits []

/-- The number that a run of ASCII digits denotes; leading zeros do not count. -/
def toNat (digits : Text) : Nat := Nat.ofDigitChars 10 digits 0

def padLeft (width : Nat) (c : Char) (t : Text) : Text :=
  List.replicate (width - t.length) c ++ t

def padRight (width : Nat) (c : Char) (t : Text) : Text :=
  t ++ List.replicate (width - t.length) c

/-- The parts with `separator` between neighbours. -/
def join (separator : Text) : List Text → Text
  | [] => []
  | [t] => t
  | t :: u :: rest => t ++ separator ++ join separator (u :: rest)

/-- Lower-case hexadecimal, at least `width` digits. -/
def hex (width n : Nat) : Text := padLeft width '0' (Nat.toDigits 16 n)

theorem toNat_ofNat (n : Nat) : toNat (ofNat n) = n := Nat.ofDigitChars_ten_toDigits

theorem length_ofNat_le {n k : Nat} (positive : 0 < k) :
    (ofNat n).length ≤ k ↔ n < powerOfTen k :=
  Nat.length_toDigits_le_iff (by decide) positive

theorem isSome_ofInt? {n : Int} :
    (ofInt? n).isSome = true ↔ n.natAbs < powerOfTen digitLimit := by
  rw [ofInt?, ← length_ofNat_le (by decide)]
  split
  next many => simpa using many
  next short => simpa using short

theorem ofInt?_eq_some {n : Int} {t : Text} (written : ofInt? n = some t) : t = ofInt n := by
  unfold ofInt? at written
  split at written
  · cases written
  · exact (Option.some.inj written).symm

theorem isBlank_of_isLayout {c : Char} (layout : isLayout c = true) : isBlank c = true := by
  simp only [isLayout, Bool.or_eq_true, beq_iff_eq] at layout
  rcases layout with ((rfl | rfl) | rfl) | rfl <;> decide

theorem dropWhile_blank_idem (t : Text) :
    (t.dropWhile isBlank).dropWhile isBlank = t.dropWhile isBlank := by
  induction t with
  | nil => rfl
  | cons c rest ih => by_cases h : isBlank c = true <;> simp [List.dropWhile, h, ih]

theorem trimRight_trimRight (t : Text) : trimRight (trimRight t) = trimRight t := by
  simp [trimRight, dropWhile_blank_idem]

theorem dropWhile_trimRight {t : Text} (tight : t.dropWhile isBlank = t) :
    (trimRight t).dropWhile isBlank = trimRight t := by
  cases t with
  | nil => rfl
  | cons c rest =>
    have ink : isBlank c = false := by
      cases h : isBlank c with
      | false => rfl
      | true =>
        have shorter := congrArg List.length tight
        have bound := (List.dropWhile_suffix isBlank (l := rest)).length_le
        simp [List.dropWhile, h] at shorter
        omega
    by_cases none : rest.reverse.dropWhile isBlank = []
    · simp [trimRight, List.dropWhile_append, none, ink]
    · simp [trimRight, List.dropWhile_append, none, ink]

theorem trim_trim (t : Text) : trim (trim t) = trim t := by
  unfold trim
  rw [dropWhile_trimRight (dropWhile_blank_idem t), trimRight_trimRight]

end Text
end BranchGate
