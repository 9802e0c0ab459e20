import BranchGate.Text.Quote

/-! Masking: the contents of quoted strings become spaces, so that scans for code never read
data. Quotes stay, every position keeps its meaning, and an unclosed string is data to the end
of the text. -/
namespace BranchGate

/-- Where a character stands: in code, inside a string, or right after a backslash there. -/
inductive Region
  | code
  | literal (quote : Quote)
  | escaped (quote : Quote)
  deriving DecidableEq, Repr

namespace Region

def next : Region → Char → Region
  | .code, c =>
    match Quote.ofChar? c with
    | some q => .literal q
    | none => .code
  | .literal q, c =>
    if c = '\\' then .escaped q
    else if c = q.char then .code
    else .literal q
  | .escaped q, _ => .literal q

/-- The character that scans see; only a closing quote shows inside a string. -/
def shown : Region → Char → Char
  | .code, c => c
  | .literal q, c => if c = q.char then c else ' '
  | .escaped _, _ => ' '

def after (region : Region) (t : Text) : Region := t.foldl next region

end Region

def maskFrom : Region → Text → Text
  | _, [] => []
  | region, c :: rest => region.shown c :: maskFrom (region.next c) rest

def mask (t : Text) : Text := maskFrom .code t

theorem length_maskFrom (region : Region) (t : Text) :
    (maskFrom region t).length = t.length := by
  induction t generalizing region with
  | nil => rfl
  | cons c rest ih => simp [maskFrom, ih]

theorem maskFrom_append (region : Region) (a b : Text) :
    maskFrom region (a ++ b) = maskFrom region a ++ maskFrom (region.after a) b := by
  induction a generalizing region with
  | nil => rfl
  | cons c rest ih => simp [maskFrom, Region.after, ih]

end BranchGate
