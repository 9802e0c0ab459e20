import BranchGate.Number.Shortest
import BranchGate.Value

/-! Values as JSON on one line, without spaces. Characters beyond ASCII stand as they are. A value
with an integer of too many digits has no such form. -/
namespace BranchGate.Value

def jsonChar (c : Char) : Text :=
  if c = '\x22' then "\\\x22"
  else if c = '\\' then "\\\\"
  else if c = '\n' then "\\n"
  else if c = '\r' then "\\r"
  else if c = '\t' then "\\t"
  else if c = '\x08' then "\\b"
  else if c = '\x0c' then "\\f"
  else if c.toNat < 0x20 then "\\u" ++ Text.hex 4 c.toNat
  else [c]

def jsonText (t : Text) : Text := '\x22' :: (t.flatMap jsonChar ++ ['\x22'])

def jsonDecimal (x : Binary64) : Text := x.toText Binary64.plainLayout ⟨"Infinity", "NaN"⟩

mutual

def json : Value → Option Text
  | .null => some "null"
  | .bool true => some "true"
  | .bool false => some "false"
  | .integer n => Text.ofInt? n
  | .decimal x => some (jsonDecimal x)
  | .text t => some (jsonText t)
  | .list items => do some ('[' :: (Text.join "," (← jsonItems items) ++ [']']))
  | .record fields => do some ('\x7b' :: (Text.join "," (← jsonFields fields) ++ ['\x7d']))

def jsonItems : List Value → Option (List Text)
  | [] => some []
  | v :: rest => do some ((← json v) :: (← jsonItems rest))

def jsonFields : List (Text × Value) → Option (List Text)
  | [] => some []
  | (name, v) :: rest => do some ((jsonText name ++ ':' :: (← json v)) :: (← jsonFields rest))

end

end BranchGate.Value
