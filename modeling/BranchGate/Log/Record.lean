import BranchGate.Log.Clock
import BranchGate.Log.Level
import BranchGate.Value.Plain

/-! Log calls and the records they make. A record has fixed attributes; the fields of a call
join it under names of their own. -/
namespace BranchGate.Log

/-- What went wrong, told with a record. -/
inductive Problem
  /-- Asked for while nothing had gone wrong. -/
  | absent
  /-- An error by its kind and message; `stack` is how it is told in full, with its traceback. -/
  | raised (kind message stack : Text)
  deriving DecidableEq, Repr

/-- An error that comes from nowhere and so has no traceback. A missing key is told as the quoted
key. -/
def Problem.untraced (kind message : Text) : Problem :=
  let told := if kind = "KeyError".toList then Text.quoted message else message
  .raised kind told (if told.isEmpty then kind else kind ++ ": " ++ told)

def Problem.stack : Problem → Text
  | .absent => "NoneType: None"
  | .raised _ _ stack => stack

structure Call where
  /-- The child logger; empty for the base logger. -/
  logger : Text
  /-- The method that stands for the level; none when the level itself was given. -/
  method : Option Text
  level : Int
  message : Text
  fields : Fields Value
  /-- Fields that keep their names and come first. -/
  extra : Fields Value
  problem : Option Problem

structure Record where
  logger : Text
  level : Int
  message : Text
  time : Time
  extras : Fields Value
  problem : Option Problem

/-- The attributes that every record has from the start. -/
def recordAttributes : List Text := [
  "name", "msg", "args", "levelname", "levelno", "pathname", "filename", "module", "exc_info",
  "exc_text", "stack_info", "lineno", "funcName", "created", "msecs", "relativeCreated", "thread",
  "threadName", "processName", "process"]

/-- Names that formatting writes to a record. -/
def formattedAttributes : List Text := ["message", "asctime"]

/-- Names that a field of a call may not keep and that no line shows. -/
def standardAttributes : List Text := recordAttributes ++ (["asctime", "taskName"] : List Text)

/-- Options of a call, which are no fields. -/
def callOptions : List Text := ["exc_info", "stack_info", "stacklevel", "extra"]

def fieldName (name : Text) : Text :=
  if standardAttributes.contains name then "field_" ++ name else name

/-- The methods that a call goes through, each with the names of its own arguments. -/
def Call.methods (call : Call) : List (Text × List Text) :=
  let direct : Text × List Text := ("log", ["self", "level", "msg"])
  match call.method with
  | none => [direct]
  | some method => [(method, ["self", "msg"]), direct]

/-- The first method, if any, one of whose arguments is given again as a field, and the name
of the first such field. -/
def Call.repeated? (call : Call) : Option (Text × Text) :=
  call.methods.findSome? fun (method, own) =>
    (call.fields.names.find? own.contains).map ((method, ·))

/-- The extra fields of a call, then its own under their field names; the first of one name
counts. -/
def Call.extras (call : Call) : Fields Value :=
  let given := call.fields.filter fun f => !callOptions.contains f.1
  call.extra.putAllNew (given.map fun f => (fieldName f.1, f.2))

def isReserved (name : Text) : Bool :=
  formattedAttributes.contains name || recordAttributes.contains name

def baseLogger : Text := "flowcond"

def loggerName (child : Text) : Text :=
  if child.isEmpty then baseLogger else baseLogger ++ "." ++ child

/-- Why a call makes no record. -/
inductive Unrecorded
  /-- The level has too many digits to be told by its number. -/
  | longLevel
  /-- The first extra field that would replace an attribute. -/
  | reservedField (name : Text)
  deriving DecidableEq, Repr

/-- A refused field is told as a missing key is: quoted as a whole. -/
def Unrecorded.message : Unrecorded → Text
  | .longLevel => Text.unwritable
  | .reservedField name =>
    Text.quoted ("Attempt to overwrite " ++ Text.quoted name ++ " in LogRecord")

/-- The record of a call. The level is told first, so each record has a level that can be. -/
def Call.record (call : Call) (time : Time) : Except Unrecorded Record :=
  if Text.ofInt? call.level = none then .error .longLevel
  else
    match call.extras.names.find? isReserved with
    | some name => .error (.reservedField name)
    | none => .ok {
        logger := loggerName call.logger
        level := call.level
        message := call.message
        time
        extras := call.extras
        problem := call.problem }

/-- Copies onto a record the context fields that it does not have. -/
def Record.withContext (context : Fields Value) (r : Record) : Record :=
  { r with extras := r.extras.putAllNew (context.filter fun f => !recordAttributes.contains f.1) }

end BranchGate.Log
