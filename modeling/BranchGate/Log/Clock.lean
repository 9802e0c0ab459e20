import BranchGate.Number.Binary64
import BranchGate.Text

/-! Clock times: seconds since 1970 and their calendar form. Fractions are scaled in binary64
arithmetic, so a time just below a millisecond may show as either neighbour. -/
namespace BranchGate.Log

structure Date where
  year : Int
  month : Nat
  day : Nat
  deriving DecidableEq, Repr

/-- The date of a day counted from 1970-01-01. Years are taken to begin in March, so that a
leap day comes last; eras of 400 years all have the same length. -/
def Date.ofDay (days : Int) : Date :=
  let shifted := days + 719468
  let era := shifted.fdiv 146097
  let inEra := (shifted.fmod 146097).toNat
  let yearOfEra := (inEra - inEra / 1460 + inEra / 36524 - inEra / 146096) / 365
  let dayOfYear := inEra - (365 * yearOfEra + yearOfEra / 4 - yearOfEra / 100)
  let shiftedMonth := (5 * dayOfYear + 2) / 153
  let month := if shiftedMonth < 10 then shiftedMonth + 3 else shiftedMonth - 9
  let year := (yearOfEra : Int) + era * 400
  { year := if month ≤ 2 then year + 1 else year
    month
    day := dayOfYear - (153 * shiftedMonth + 2) / 5 + 1 }

structure Moment where
  date : Date
  hour : Nat
  minute : Nat
  second : Nat
  deriving DecidableEq, Repr

def Moment.ofSeconds (seconds : Int) : Moment :=
  let inDay := (seconds.fmod 86400).toNat
  { date := Date.ofDay (seconds.fdiv 86400)
    hour := inDay / 3600
    minute := inDay / 60 % 60
    second := inDay % 60 }

/-- What a clock shows, which is always finite: sign, whole seconds of the magnitude, and the
fraction as a ratio. -/
structure Time where
  negative : Bool
  whole : Nat
  num : Nat
  den : Nat
  deriving DecidableEq, Repr

namespace Time

def of? (seconds : Binary64) : Option Time :=
  seconds.ratio?.map fun (n, d) => ⟨seconds.isNegative, n / d, n % d, d⟩

def ofInt (seconds : Int) : Time := ⟨seconds < 0, seconds.natAbs, 0, 1⟩

/-- The fraction times `k`, rounded to binary64, as a ratio. -/
def scaled (t : Time) (k : Nat) : Nat × Nat :=
  ((Binary64.ofRatio false (t.num * k) t.den).ratio?).getD (0, 1)

def signed (t : Time) (n : Nat) : Int := if t.negative then -(n : Int) else n

/-- Microseconds since 1970, a tie to the even one. -/
def micros (t : Time) : Int :=
  let (n, d) := t.scaled 1000000
  t.signed (t.whole * 1000000 + Binary64.divideEven n d)

/-- Whole seconds, toward the past. -/
def floor (t : Time) : Int :=
  if t.negative ∧ t.num ≠ 0 then t.signed t.whole - 1 else t.signed t.whole

/-- Milliseconds of the fraction, toward zero. -/
def millis (t : Time) : Int :=
  let (n, d) := t.scaled 1000
  t.signed (n / d)

end Time

def two (n : Nat) : Text := Text.padLeft 2 '0' (Text.ofNat n)

def writeDate (year : Text) (d : Date) : Text := year ++ "-" ++ two d.month ++ "-" ++ two d.day

def writeTime (m : Moment) : Text := two m.hour ++ ":" ++ two m.minute ++ ":" ++ two m.second

/-- ISO 8601 with milliseconds, for the years 1 to 9999. -/
def isoTime? (t : Time) : Option Text :=
  let m := Moment.ofSeconds (t.micros.fdiv 1000000)
  let millis := (t.micros.fmod 1000000).toNat / 1000
  let year := m.date.year
  if 1 ≤ year ∧ year ≤ 9999 then
    some (writeDate (Text.padLeft 4 '0' (Text.ofNat year.toNat)) m.date ++ "T" ++ writeTime m ++
      "." ++ Text.padLeft 3 '0' (Text.ofNat millis) ++ "Z")
  else none

/-- Three characters or more, the sign among them. -/
def writeMillis (n : Int) : Text :=
  if n < 0 then '-' :: Text.padLeft 2 '0' (Text.ofNat n.natAbs)
  else Text.padLeft 3 '0' (Text.ofNat n.natAbs)

/-- Date and time with `mark` before the milliseconds, for the years that fit into 32 bits both as
they are and counted from 1900. -/
def plainTime? (mark : Char) (t : Time) : Option Text :=
  let m := Moment.ofSeconds t.floor
  let year := m.date.year
  if -2147481748 ≤ year ∧ year ≤ 2147483647 then
    some (writeDate (Text.ofInt year) m.date ++ " " ++ writeTime m ++ mark :: writeMillis t.millis)
  else none

end BranchGate.Log
