import BranchGate.Config
import BranchGate.Expr.Parser
import BranchGate.Gate.Rejection
import BranchGate.Scan.Words

/-! The gate for branch conditions. A condition passes the steps in a fixed order and the
first one that fails gives the reason; what passes has a tree. The pre-check is advice on raw
text and has no part in the decision. -/
namespace BranchGate

inductive Verdict
  | valid
  | invalid (reason : Text)
  deriving DecidableEq, Repr

/-- A refusal has a reason with content. -/
def Verdict.ofReason? : Value → Option Verdict
  | .text [] => none
  | .text reason => some (.invalid reason)
  | _ => none

namespace Gate

def reject {α : Type} (cause : Rejection) : Except Failure α := .error (.rejected cause)

def checkLength (config : Config) (t : Text) : Except Failure Unit :=
  if config.maxLength.value < t.length then reject (.tooLong config.maxLength) else .ok ()

def checkDenylist (t : Text) : Except Failure Unit :=
  match Rule.first? denylist t with
  | some rule => reject (.denied rule)
  | none => .ok ()

def checkParentheses (t : Text) : Except Failure Unit :=
  if Scan.parenthesesBalance t then .ok () else reject .parentheses

/-- The bracket scan; a limit that cannot be looked for fails whatever the text. -/
def bracketFault (limit : Limit) (t : Text) : Except Escape (Option Scan.BracketFault) :=
  if Text.ofInt? limit.value = none then .error .longLimit
  else if Scan.repetitionBound ≤ limit.value then .error .repetitionTooLarge
  else if limit = .count 0 then .error .emptyRepetition
  else .ok (Scan.bracketFault? limit t)

def checkBrackets (config : Config) (t : Text) : Except Failure Unit :=
  match bracketFault config.maxIndexDigits t with
  | .ok none => .ok ()
  | .ok (some fault) => reject (.brackets fault)
  | .error cause => .error (.escaped cause)

def checkMethods (config : Config) (t : Text) : Except Failure Unit :=
  match Scan.foreignMethod? config.methods t with
  | some name => reject (.method name)
  | none => .ok ()

def checkIdentifiers (t : Text) : Except Failure Unit :=
  match Scan.strayIdentifier? t with
  | some name => reject (.identifier name)
  | none => .ok ()

/-- The rules of the grammar under a configuration; nesting never exceeds the stack. -/
def allowance (config : Config) : Expr.Allowance where
  methods := config.methods
  depth :=
    if config.maxDepth.value ≤ config.stackLevels then config.maxDepth
    else .count config.stackLevels

def grammarFailure (config : Config) : ReadError → Failure
  | .tooManyDigits count => .escaped (.tooManyDigits count)
  | .malformed (.nestedTooDeeply limit) =>
    if limit = config.maxDepth then .rejected (.grammar (.nestedTooDeeply limit))
    else .rejected .stackExhausted
  | .malformed cause => .rejected (.grammar cause)

def readTree (config : Config) (t : Text) : Except Failure Expr :=
  (Expr.read (allowance config) t).mapError (grammarFailure config)

/-- The steps, for a trimmed text with content. -/
def compileTrimmed (config : Config) (t : Text) : Except Failure Expr := do
  checkLength config t
  checkDenylist t
  checkParentheses t
  checkBrackets config t
  checkMethods config t
  checkIdentifiers t
  readTree config t

/-- The tree of a condition that passes. -/
def compile (config : Config) : Value → Except Failure Expr
  | .text t => if Text.allBlank t then reject .empty else compileTrimmed config (Text.trim t)
  | _ => reject .empty

def validate (config : Config) (input : Value) : Except Escape Verdict :=
  match compile config input with
  | .ok _ => .ok .valid
  | .error (.rejected cause) => .ok (.invalid cause.message)
  | .error (.escaped cause) => .error cause

/-- The text itself, untrimmed, when it passes. -/
def ensureValid (config : Config) : Value → Except Failure Text
  | .text t => (compile config (.text t)).map fun _ => t
  | _ => reject .empty

/-- Checks that note what they refuse; what was noted before a failure stays noted. -/
abbrev Noting := ExceptT Failure (StateM (List Notice))

def note (n : Notice) : Noting Unit := modify (· ++ [n])

/-- One step on a trimmed text. Its refusal is noted before it is passed on; what it does not turn
into a refusal is not. -/
def noting {α : Type} (step : Step) (t : Text) : Except Failure α → Noting α
  | .ok a => pure a
  | .error (.rejected cause) => do
    note (.rejected step cause.code? t.length)
    throw (.rejected cause)
  | .error (.escaped cause) => throw (.escaped cause)

def compileTrimmedNoting (config : Config) (t : Text) : Noting Expr := do
  noting .length t (checkLength config t)
  noting .denylist t (checkDenylist t)
  noting .parentheses t (checkParentheses t)
  noting .brackets t (checkBrackets config t)
  noting .methods t (checkMethods config t)
  noting .identifiers t (checkIdentifiers t)
  noting .grammar t (readTree config t)

def compileNoting (config : Config) : Value → Noting Expr
  | .text t =>
    if Text.allBlank t then throw (.rejected .empty)
    else compileTrimmedNoting config (Text.trim t)
  | _ => throw (.rejected .empty)

/-- What a validation notes. -/
def notices (config : Config) (input : Value) : List Notice :=
  ((compileNoting config input).run.run []).2

def emptyInput : Text := "Condition must be a non-empty string"

/-- Keywords are looked for in the untrimmed text; a blank text is input all the same. -/
def preValidate : Value → Verdict
  | .text [] => .invalid emptyInput
  | .text t =>
    match Rule.first? keywordRules t with
    | some rule => .invalid rule.message
    | none => .valid
  | _ => .invalid emptyInput

def preNotices : Value → List Notice
  | .text [] => [.noInput (some 0)]
  | .text t =>
    match Rule.first? keywordRules t with
    | some rule => [.keyword rule.code t.length]
    | none => []
  | _ => [.noInput none]

end Gate
end BranchGate
