import BranchGate.Text

/-! Log levels: integers, some of which have names. -/
namespace BranchGate.Log

def debugLevel : Int := 10

/-- In force while no level is set. -/
def warningLevel : Int := 30

def errorLevel : Int := 40

def namedLevels : List (Text × Int) := [
  ("CRITICAL", 50), ("FATAL", 50), ("ERROR", 40), ("WARNING", 30), ("WARN", 30), ("INFO", 20),
  ("DEBUG", 10), ("NOTSET", 0)]

/-- Upper case, as far as it can yield a letter of a level name. -/
def upper (c : Char) : Char :=
  if c = '\u0131' then 'I' else if c = '\u017F' then 'S' else c.toUpper

/-- The level of a name, in any case. -/
def levelNamed? (name : Text) : Option Int :=
  (namedLevels.find? fun l => l.1 == name.map upper).map (·.2)

/-- Of two names for one level the first is shown. -/
def levelName (level : Int) : Text :=
  match namedLevels.find? fun l => l.2 == level with
  | some (name, _) => name
  | none => "Level " ++ Text.ofInt level

inductive LevelRef
  | number (n : Int)
  | name (t : Text)
  deriving DecidableEq, Repr

/-- The level meant, or the name that is none. -/
def LevelRef.resolve : LevelRef → Except Text Int
  | .number n => .ok n
  | .name t =>
    match levelNamed? t with
    | some n => .ok n
    | none => .error t

end BranchGate.Log
