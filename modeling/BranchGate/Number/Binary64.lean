/-! IEEE 754 binary64 numbers as bit patterns. Ratios of natural numbers are rounded to the
nearest value, ties to the even one, in exact arithmetic. -/
namespace BranchGate

structure Binary64 where
  bits : UInt64
  deriving DecidableEq, Repr

namespace Binary64

/-- The significands of one exponent. -/
def significands : Nat := Nat.pow 2 52

def infinityBits : Nat := 0x7FF * significands

/-- Not-a-number has no sign to flip that any reading shows; all other values change sign. -/
def negate (x : Binary64) : Binary64 := ⟨x.bits ^^^ 0x8000000000000000⟩

def isNegative (x : Binary64) : Bool := x.bits &&& 0x8000000000000000 != 0

/-- Zero of either sign. -/
def isZero (x : Binary64) : Bool := x.bits.toNat % Nat.pow 2 63 == 0

/-- The quotient rounded to nearest, a tie to the even neighbour. -/
def divideEven (num den : Nat) : Nat :=
  let q := num / den
  let twice := 2 * (num % den)
  if twice < den || (twice == den && q % 2 == 0) then q else q + 1

/-- `num / den / base ^ e` as a ratio of natural numbers. -/
def scaleDown (base num den : Nat) (e : Int) : Nat × Nat :=
  (num * base.pow (-e).toNat, den * base.pow e.toNat)

/-- `base ^ e ≤ num / den`. -/
def reaches (base num den : Nat) (e : Int) : Bool :=
  let (n, d) := scaleDown base num den e
  d ≤ n

/-- The greatest `k` with `2 ^ k ≤ num / den`, both positive. -/
def binaryOrder (num den : Nat) : Int :=
  let k : Int := (num.log2 : Int) - (den.log2 : Int)
  if reaches 2 num den k then k else k - 1

/-- The pattern of a non-negative ratio. Significand and exponent are added, not joined, so a
significand that rounds up to `2 ^ 53` carries into the exponent. -/
def magnitude (num den : Nat) : Nat :=
  if num = 0 then 0
  else
    let e : Int := max (-1074) (binaryOrder num den - 52)
    let (n, d) := scaleDown 2 num den e
    min infinityBits ((e + 1074).toNat * significands + divideEven n d)

def ofRatio (negative : Bool) (num den : Nat) : Binary64 :=
  let m : Binary64 := ⟨(magnitude num den).toUInt64⟩
  if negative then m.negate else m

/-- `digits * 10 ^ exponent`. Far outside the range the answer is settled without the power. -/
def ofDecimal (negative : Bool) (digits : Nat) (exponent : Int) : Binary64 :=
  if digits = 0 then ofRatio negative 0 1
  else if 400 < exponent then ofRatio negative (Nat.pow 10 400) 1
  else if exponent + (digits.log2 / 3 : Nat) + 1 < -400 then ofRatio negative 0 1
  else
    let (n, d) := scaleDown 10 digits 1 (-exponent)
    ofRatio negative n d

def ofInt (n : Int) : Binary64 := ofRatio (n < 0) n.natAbs 1

/-- Significand and exponent of the magnitude of a finite value. -/
def parts? (x : Binary64) : Option (Nat × Int) :=
  let field : Nat := x.bits.toNat / significands % 0x800
  let fraction : Nat := x.bits.toNat % significands
  if field = 0x7FF then none
  else if field = 0 then some (fraction, -1074)
  else some (fraction + significands, (field : Int) - 1075)

def isNaN (x : Binary64) : Bool := infinityBits < x.bits.toNat % Nat.pow 2 63

/-- The magnitude of a finite value as a ratio. -/
def ratio? (x : Binary64) : Option (Nat × Nat) :=
  x.parts?.map fun (m, q) => scaleDown 2 m 1 (-q)

end Binary64
end BranchGate
