import BranchGate.Log.Record
import BranchGate.Value.Json

/-! The three forms of a log line. -/
namespace BranchGate.Log

inductive Format
  | json (stack : Bool)
  | human
  | plain
  deriving DecidableEq, Repr

def problemField (stack : Bool) (p : Problem) : Value :=
  let (kind, message) : Text × Value := match p with
    | .absent => ("Exception", .null)
    | .raised kind message _ => (kind, .text message)
  .record ([("type".toList, Value.text kind), ("message".toList, message)] ++
    if stack then [("stack".toList, Value.text p.stack)] else [])

def header (time : Text) (r : Record) : Fields Value :=
  [("ts".toList, Value.text time), ("level".toList, .text (levelName r.level)),
    ("logger".toList, .text r.logger)] ++
    if r.message.isEmpty then [] else [("message".toList, .text r.message)]

/-- Header, context, extras and problem as one object. The context replaces what the header
says; an extra replaces nothing; the problem replaces in place. -/
def jsonObject (stack : Bool) (context : Fields Value) (time : Text) (r : Record) : Fields Value :=
  let shown := r.extras.filter fun f => !standardAttributes.contains f.1
  let object := ((header time r).putAll context).putAllNew shown
  match r.problem with
  | none => object
  | some p => object.put "error" (problemField stack p)

def formatJson (stack : Bool) (context : Fields Value) (r : Record) : Option Text := do
  (Value.record (jsonObject stack context (← isoTime? r.time) r)).json

/-- The fields that the human form shows, in this order, when they are not null. -/
def humanFields : List Text := ["event", "step", "code", "workflow_id", "node_id"]

/-- Fields of the record count before those of the context. -/
def shownFields (context : Fields Value) (r : Record) : Fields Value :=
  let fields := context.putAll r.extras
  humanFields.filterMap fun name =>
    match fields.get? name with
    | none | some .null => none
    | some v => some (name, v)

def writeField (f : Text × Value) : Option Text := do some (f.1 ++ "=" ++ (← f.2.plain))

def bracketed (parts : List Text) : Text :=
  if parts.isEmpty then [] else "  [" ++ Text.join ", " parts ++ "]"

def formatHuman (context : Fields Value) (r : Record) : Option Text := do
  let time ← plainTime? '.' r.time
  let fields ← (shownFields context r).mapM writeField
  let line := time ++ " " ++ Text.padRight 5 ' ' (levelName r.level) ++ " " ++ r.logger ++ ": " ++
    r.message ++ bracketed fields
  match r.problem with
  | none => some line
  | some p => some (line ++ '\n' :: p.stack)

/-- A problem of which anything is told starts on a line of its own. -/
def formatPlain (r : Record) : Option Text := do
  let time ← plainTime? ',' r.time
  let line := time ++ " " ++ levelName r.level ++ " " ++ r.logger ++ ": " ++ r.message
  match r.problem with
  | none => some line
  | some p =>
    if p.stack.isEmpty ∨ line.getLast? = some '\n' then some (line ++ p.stack)
    else some (line ++ '\n' :: p.stack)

/-- The line of a record, without its line break; none when the time or an integer that it shows has
no written form. -/
def Format.write (format : Format) (context : Fields Value) (r : Record) : Option Text :=
  match format with
  | .json stack => formatJson stack context r
  | .human => formatHuman context r
  | .plain => formatPlain r

end BranchGate.Log
