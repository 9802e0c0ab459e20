import BranchGate.Number.Binary64
import BranchGate.Text

/-! The decimal text of a binary64 number: the fewest digits that read back as the same
number, the nearest to it among those. For each count of digits only the two neighbours of the
value on that decimal grid can qualify. -/
namespace BranchGate.Binary64

/-- The greatest `k` with `10 ^ k ≤ num / den`, both positive. The binary orders leave three
candidates. -/
def decimalOrder (num den : Nat) : Int :=
  let k : Int := ((num.log2 : Int) - (den.log2 : Int)) * 30103 / 100000
  if reaches 10 num den (k + 1) then k + 1
  else if reaches 10 num den k then k
  else k - 1

/-- The values that read back as one number, in units of `2 ^ scale`; the ends belong to it
when the significand is even. -/
structure Span where
  low : Nat
  mid : Nat
  high : Nat
  scale : Int
  closed : Bool

/-- Below a power of two the neighbour is half as far. -/
def span (m : Nat) (q : Int) : Span where
  low := if m = significands ∧ -1074 < q then 4 * m - 1 else 4 * m - 2
  mid := 4 * m
  high := 4 * m + 2
  scale := q - 2
  closed := m % 2 == 0

/-- The multiple of `10 ^ grid` inside the span that is nearest to its middle, of two equally
near the even one. -/
def Span.onGrid? (s : Span) (grid : Int) : Option Nat :=
  let place := fun x => x * Nat.pow 2 s.scale.toNat * Nat.pow 10 (-grid).toNat
  let unit := Nat.pow 2 (-s.scale).toNat * Nat.pow 10 grid.toNat
  let inside := fun c =>
    if s.closed then place s.low ≤ c * unit && c * unit ≤ place s.high
    else place s.low < c * unit && c * unit < place s.high
  let below := place s.mid / unit
  let above := below + 1
  let nearest := divideEven (place s.mid) unit
  if inside nearest then some nearest
  else if inside below then some below
  else if inside above then some above
  else none

/-- Digits without trailing zeros, and the power of ten of the first digit. -/
structure Digits where
  digits : Text
  order : Int

/-- Seventeen digits always suffice. -/
def shortest (m : Nat) (q : Int) : Digits :=
  let s := span m q
  let (num, den) := scaleDown 2 m 1 (-q)
  let order := decimalOrder num den
  let found := (List.range' 1 17).findSome? fun (count : Nat) =>
    let grid := order - (count : Int) + 1
    (s.onGrid? grid).map (·, grid)
  match found with
  | none => ⟨['0'], 0⟩
  | some (c, grid) =>
    let ds := Text.ofNat c
    ⟨(ds.reverse.dropWhile (· == '0')).reverse, grid + (ds.length : Int) - 1⟩

/-- How digits are laid out: the orders written positionally, and the least width of an
exponent. A positional number always shows a fraction digit. -/
structure Layout where
  leastPositional : Int
  mostPositional : Int
  exponentWidth : Nat

/-- Orders from -4 to 15 are positional; an exponent is signed and has two digits or more. -/
def plainLayout : Layout := ⟨-4, 15, 2⟩

def Layout.positional (ds : Text) (order : Int) : Text :=
  if order < 0 then
    '0' :: '.' :: (List.replicate ((-order).toNat - 1) '0' ++ ds)
  else
    let count := order.toNat + 1
    let whole := Text.padRight count '0' (ds.take count)
    let fraction := ds.drop count
    whole ++ '.' :: (if fraction.isEmpty then ['0'] else fraction)

def Layout.scientific (layout : Layout) (ds : Text) (order : Int) : Text :=
  let mantissa := match ds with
    | d :: e :: rest => d :: '.' :: e :: rest
    | short => short
  mantissa ++ 'e' :: (if order < 0 then '-' else '+') ::
    Text.padLeft layout.exponentWidth '0' (Text.ofNat order.natAbs)

def Layout.write (layout : Layout) (d : Digits) : Text :=
  if layout.leastPositional ≤ d.order ∧ d.order ≤ layout.mostPositional then
    Layout.positional d.digits d.order
  else layout.scientific d.digits d.order

/-- The texts of the values without digits. -/
structure Specials where
  infinity : Text
  nan : Text

def toText (layout : Layout) (specials : Specials) (x : Binary64) : Text :=
  let body := match x.parts? with
    | none => if x.isNaN then specials.nan else specials.infinity
    | some (0, _) => ("0.0" : Text)
    | some (m, q) => layout.write (shortest m q)
  if x.isNegative && !x.isNaN then '-' :: body else body

end BranchGate.Binary64
