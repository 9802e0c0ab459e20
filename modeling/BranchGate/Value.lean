import BranchGate.Fields
import BranchGate.Number.Binary64

/-! Plain data of any shape: what callers hand in before it has been checked, and what log
records carry. -/
namespace BranchGate

inductive Value
  | null
  | bool (b : Bool)
  | integer (n : Int)
  | decimal (x : Binary64)
  | text (t : Text)
  | list (items : List Value)
  | record (fields : List (Text × Value))

namespace Value

instance : Inhabited Value := ⟨.null⟩
instance : Coe Text Value := ⟨.text⟩
instance : Coe String Value := ⟨fun s => .text s.toList⟩
instance : Coe Bool Value := ⟨.bool⟩

def isNull : Value → Bool
  | .null => true
  | _ => false

def text? : Value → Option Text
  | .text t => some t
  | _ => none

/-- Whether a value counts as given: null, false, zero and all that is empty do not. -/
def isGiven : Value → Bool
  | .null => false
  | .bool b => b
  | .integer n => n != 0
  | .decimal x => !x.isZero
  | .text t => !t.isEmpty
  | .list items => !items.isEmpty
  | .record fields => !fields.isEmpty

/-- The parts that one meets in going through a value: the characters of a text, the items of
a list, the names of a record. -/
def parts? : Value → Option (List Value)
  | .text t => some (t.map fun c => .text [c])
  | .list items => some items
  | .record fields => some (fields.map fun f => .text f.1)
  | _ => none

/-- The name of a value's kind, as messages give it. -/
def kindName : Value → Text
  | .null => "NoneType"
  | .bool _ => "bool"
  | .integer _ => "int"
  | .decimal _ => "float"
  | .text _ => "str"
  | .list _ => "list"
  | .record _ => "dict"

/-- Lists and records, which can be neither a name nor a member of a set. -/
def isCompound : Value → Bool
  | .list _ | .record _ => true
  | _ => false

/-- What is said of a value without parts where parts are needed. -/
def withoutParts (kind : Text) : Text := "'" ++ kind ++ "' object is not iterable"

/-- What is said of a compound value where a name or a member is needed. -/
def compoundMember (kind : Text) : Text := "unhashable type: '" ++ kind ++ "'"

/-- The named part of a record; other values have none. -/
def get? (v : Value) (name : Text) : Option Value :=
  match v with
  | .record fields => Fields.get? fields name
  | _ => none

/-- The named part of a record, null when it is missing. -/
def part (v : Value) (name : Text) : Value := (v.get? name).getD .null

def ofOption {α : Type} (f : α → Value) : Option α → Value
  | none => .null
  | some a => f a

end Value
end BranchGate
