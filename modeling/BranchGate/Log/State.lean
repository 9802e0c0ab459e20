import BranchGate.Gate
import BranchGate.Gate.Notice
import BranchGate.Log.Format

/-! The state of logging and what each step does to it. A step gives the new state, the records it
makes, the text it prints and perhaps an error; the library is silent until a sink is attached. -/
namespace BranchGate.Log

/-- A printing end with its own least level. -/
structure Sink where
  level : Int
  format : Format
  deriving DecidableEq, Repr

structure State where
  level : Int
  sinks : List Sink
  context : Fields Value
  /-- The contexts to go back to, innermost first. -/
  saved : List (Fields Value)
  now : Time

def State.initial (now : Time) : State := ⟨0, [], [], [], now⟩

inductive Fault
  | unknownLevel (name : Text)
  | unrecorded (cause : Unrecorded)
  | repeatedArgument (method name : Text)
  | escaped (cause : Escape)
  deriving DecidableEq, Repr

def Fault.message : Fault → Text
  | .unknownLevel name => "Invalid level name: " ++ Text.quoted name
  | .unrecorded cause => cause.message
  | .repeatedArgument method name =>
    "LoggerAdapter." ++ method ++ "() got multiple values for argument '" ++ name ++ "'"
  | .escaped cause => cause.message

structure Outcome where
  state : State
  /-- What goes to the sinks, whether or not there are any. -/
  records : List Record
  printed : Text
  fault : Option Fault

def quiet (s : State) : Outcome := ⟨s, [], [], none⟩

def failed (s : State) (cause : Fault) : Outcome := ⟨s, [], [], some cause⟩

structure SinkOptions where
  level : LevelRef
  json : Bool
  stack : Bool
  pretty : Bool
  deriving DecidableEq, Repr

def SinkOptions.format (o : SinkOptions) : Format :=
  if o.pretty then .human else if o.json then .json o.stack else .plain

/-- Settings from the environment; a missing flag is an empty text. -/
structure Environment where
  level : Option Text
  stdout : Text
  pretty : Text
  stack : Text
  deriving DecidableEq, Repr

def isOn (flag : Text) : Bool :=
  (["1", "true", "yes", "on"] : List Text).contains (flag.map Char.toLower)

inductive Action
  | enable (options : SinkOptions)
  | disable
  | setLevel (level : LevelRef)
  | bind (fields : Fields Value)
  | push (fields : Fields Value)
  | pop
  | setClock (now : Time)
  | configure (environment : Environment)
  | log (call : Call)
  | validate (input : Value)
  | preValidate (input : Value)

/-- A command on the state of logging; what it has changed before a fault stays changed. -/
abbrev Command := ExceptT Fault (StateM State)

namespace Command

def resolve (level : LevelRef) : Command Int := .mk (pure (level.resolve.mapError .unknownLevel))

def setLevel (level : LevelRef) : Command Unit := do
  let level ← resolve level
  modify fun s => { s with level }

def disable : Command Unit := modify fun s => { s with sinks := [] }

/-- A new sink takes the place of any other. -/
def enable (o : SinkOptions) : Command Unit := do
  let level ← resolve o.level
  disable
  modify fun s => { s with sinks := s.sinks ++ [⟨level, o.format⟩] }

def configure (e : Environment) : Command Unit := do
  let level := LevelRef.name (e.level.getD "WARNING")
  setLevel level
  if isOn e.stdout then
    let pretty := isOn e.pretty
    enable { level, json := !pretty, stack := isOn e.stack, pretty }
  else disable

/-- What a command comes to; it prints nothing. -/
def outcome (command : Command Unit) (s : State) : Outcome :=
  match command.run.run s with
  | (.ok (), new) => quiet new
  | (.error cause, new) => failed new cause

end Command

namespace State

/-- The context with fields bound; null fields are dropped. -/
def bound (context fields : Fields Value) : Fields Value :=
  context.putAll (fields.filter fun f => !f.2.isNull)

def bind (s : State) (fields : Fields Value) : State :=
  { s with context := bound s.context fields }

def push (s : State) (fields : Fields Value) : State :=
  { s with context := bound s.context fields, saved := s.context :: s.saved }

def pop (s : State) : State :=
  match s.saved with
  | [] => s
  | context :: rest => { s with context, saved := rest }

/-- The level in force: the one set, or the default while none is. -/
def effectiveLevel (s : State) : Int := if s.level = 0 then warningLevel else s.level

/-- Levels up to 0 are never admitted. -/
def admits (s : State) (level : Int) : Bool := 0 < level && s.effectiveLevel ≤ level

/-- What the sinks print of a record: a line each, where the level suffices. -/
def emit (s : State) (r : Record) : Text :=
  (s.sinks.filter fun sink => sink.level ≤ r.level).flatMap fun sink =>
    match sink.format.write s.context r with
    | some line => line ++ ['\n']
    | none => []

/-- The context is copied onto records of the base logger and not onto those of its children. -/
def filtered (s : State) (call : Call) (r : Record) : Record :=
  if call.logger.isEmpty then r.withContext s.context else r

/-- A repeated argument is refused at every level, a record that cannot be made at an admitted
one. -/
def log (s : State) (call : Call) : Outcome :=
  match call.repeated? with
  | some (method, name) => failed s (.repeatedArgument method name)
  | none =>
    if s.admits call.level then
      match call.record s.now with
      | .error cause => failed s (.unrecorded cause)
      | .ok r => ⟨s, [s.filtered call r], s.emit (s.filtered call r), none⟩
    else quiet s

end State

/-- The call that a notice is logged by. -/
def noticeCall (n : Notice) : Call where
  logger := "validator"
  method := some "debug"
  level := debugLevel
  message := n.message
  fields := n.fields
  extra := []
  problem := none

/-- Notices logged one after the other. Only what is noted shows; the state stays as it was. -/
def State.noted (s : State) (notices : List Notice) (fault : Option Fault) : Outcome :=
  let logged := notices.map fun n => s.log (noticeCall n)
  ⟨s, logged.flatMap Outcome.records, logged.flatMap Outcome.printed, fault⟩

def State.validate (s : State) (config : Config) (input : Value) : Outcome :=
  s.noted (Gate.notices config input) <|
    match Gate.validate config input with
    | .ok _ => none
    | .error cause => some (.escaped cause)

/-- Validations one after the other, each under its configuration. -/
def State.validateAll (s : State) : List (Config × Value) → List Outcome
  | [] => []
  | (config, input) :: rest =>
    let outcome := s.validate config input
    outcome :: validateAll outcome.state rest

def State.perform (s : State) : Action → Outcome
  | .enable options => (Command.enable options).outcome s
  | .disable => Command.disable.outcome s
  | .setLevel level => (Command.setLevel level).outcome s
  | .bind fields => quiet (s.bind fields)
  | .push fields => quiet (s.push fields)
  | .pop => quiet s.pop
  | .setClock now => quiet { s with now }
  | .configure environment => (Command.configure environment).outcome s
  | .log call => s.log call
  | .validate input => s.validate Config.default input
  | .preValidate input => s.noted (Gate.preNotices input) none

def State.after (s : State) (actions : List Action) : State :=
  actions.foldl (fun s a => (s.perform a).state) s

def run (s : State) : List Action → List Outcome
  | [] => []
  | a :: rest =>
    let outcome := s.perform a
    outcome :: run outcome.state rest

end BranchGate.Log
