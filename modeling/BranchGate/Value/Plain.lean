import BranchGate.Number.Shortest
import BranchGate.Text.Printable
import BranchGate.Text.Quote
import BranchGate.Value

/-! The plain rendering of a value in messages and banners. A text stands as it is; inside
lists and records texts are quoted. A value with an integer of too many digits has none. -/
namespace BranchGate

namespace Text

/-- An escape with the fewest digits that hold the code point: two, four or eight. -/
def codeEscape (c : Char) : Text :=
  let n := c.toNat
  if n < 0x100 then '\\' :: 'x' :: hex 2 n
  else if n < 0x10000 then '\\' :: 'u' :: hex 4 n
  else '\\' :: 'U' :: hex 8 n

def quotedChar (q : Quote) (c : Char) : Text :=
  if c = q.char ∨ c = '\\' then ['\\', c]
  else if c = '\n' then "\\n"
  else if c = '\r' then "\\r"
  else if c = '\t' then "\\t"
  else if printables.has c then [c]
  else codeEscape c

/-- Single quotes, unless the text holds some and no double ones. -/
def quoteFor (t : Text) : Quote :=
  if t.contains Quote.single.char && !t.contains Quote.double.char then .double else .single

def quoted (t : Text) : Text :=
  let q := quoteFor t
  q.char :: (t.flatMap (quotedChar q) ++ [q.char])

end Text

namespace Binary64

def plain (x : Binary64) : Text := x.toText plainLayout ⟨"inf", "nan"⟩

end Binary64

namespace Value

mutual

/-- The rendering of a value inside another. -/
def nested : Value → Option Text
  | .null => some "None"
  | .bool true => some "True"
  | .bool false => some "False"
  | .integer n => Text.ofInt? n
  | .decimal x => some x.plain
  | .text t => some (Text.quoted t)
  | .list items => do some ('[' :: (Text.join ", " (← nestedItems items) ++ [']']))
  | .record fields => do some ('\x7b' :: (Text.join ", " (← nestedFields fields) ++ ['\x7d']))

def nestedItems : List Value → Option (List Text)
  | [] => some []
  | v :: rest => do some ((← nested v) :: (← nestedItems rest))

def nestedFields : List (Text × Value) → Option (List Text)
  | [] => some []
  | (name, v) :: rest => do
    some ((Text.quoted name ++ ": " ++ (← nested v)) :: (← nestedFields rest))

end

def plain : Value → Option Text
  | .text t => some t
  | v => nested v

end Value
end BranchGate
