import BranchGate.Number.Binary64
import BranchGate.Text

/-! The exact decimal expansion of a binary64 magnitude, always with a point. It reads back as
the same magnitude. -/
namespace BranchGate.Binary64

/-- An infinite magnitude is written as a number beyond the range. -/
def exact (x : Binary64) : Text :=
  match x.parts? with
  | none => Text.ofNat (Nat.pow 10 309) ++ ".0"
  | some (m, q) =>
    if 0 ≤ q then Text.ofNat (m * Nat.pow 2 q.toNat) ++ ".0"
    else
      let places := (-q).toNat
      let scaled := m * Nat.pow 5 places
      Text.ofNat (scaled / Nat.pow 10 places) ++
        '.' :: Text.padLeft places '0' (Text.ofNat (scaled % Nat.pow 10 places))

end BranchGate.Binary64
