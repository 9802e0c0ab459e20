import BranchGate.Branch.Session
import BranchGate.Display
import BranchGate.Expr.Grammar
import BranchGate.Expr.Nesting
import BranchGate.Expr.Printer
import BranchGate.Expr.Shape
import BranchGate.Expr.WellFormed
import BranchGate.Gate.Report
import BranchGate.Log.State
import BranchGate.Proofs.Expr.Adjacency
import BranchGate.Proofs.Expr.Completeness
import BranchGate.Proofs.Expr.InStep
import BranchGate.Proofs.Expr.Nesting
import BranchGate.Proofs.Expr.Nodes
import BranchGate.Proofs.Expr.Printed
import BranchGate.Proofs.Expr.Soundness
import BranchGate.Proofs.Expr.Usage
import BranchGate.Proofs.Gate.Answers
import BranchGate.Proofs.Gate.Inert
import BranchGate.Proofs.Gate.Limits
import BranchGate.Proofs.Gate.Safety
import BranchGate.Proofs.Gate.Scans
import BranchGate.Proofs.Gate.Steps
import BranchGate.Proofs.Mask.Blanked
import BranchGate.Proofs.Mask.Strings
import BranchGate.Proofs.Mask.Tokens
import BranchGate.Proofs.Rule.Words
import BranchGate.Proofs.Scan.Brackets
import BranchGate.Proofs.Scan.Keys
import BranchGate.Proofs.Scan.Words
import BranchGate.Proofs.Text.Classes
import BranchGate.Proofs.Text.Trim
import BranchGate.Proofs.Token.Completeness
import BranchGate.Proofs.Token.Digits
import BranchGate.Proofs.Token.Layout
import BranchGate.Proofs.Token.Lexed
import BranchGate.Proofs.Token.Neighbours
import BranchGate.Value.Json
import BranchGate.Value.Json.Reader
import BranchGate.Proofs.Expr.Neighbours
import BranchGate.Proofs.Rule.Seams
import BranchGate.Proofs.Gate.Precheck
import BranchGate.Proofs.Rule.Names
import BranchGate.Proofs.Scan.Bases
import BranchGate.Proofs.Scan.Parentheses
import BranchGate.Proofs.Gate.Layout
import BranchGate.Proofs.Gate.Unquoted
import BranchGate.Proofs.Branch.Documents
import BranchGate.Proofs.Branch.Stored
import BranchGate.Proofs.Branch.Variables
import BranchGate.Proofs.Expr.Descent
import BranchGate.Proofs.Log.Sinks
import BranchGate.Proofs.Log.Clock
import BranchGate.Proofs.Log.Objects
import BranchGate.Proofs.Log.Shown
import BranchGate.Proofs.Log.Runs
import BranchGate.Proofs.Log.Loggers
import BranchGate.Proofs.Log.Notices
import BranchGate.Proofs.Expr.Threshold
import BranchGate.Proofs.Scan.Findings
import BranchGate.Proofs.Scan.Faults
import BranchGate.Proofs.Token.LongestMatch
import BranchGate.Proofs.Fields
import BranchGate.Proofs.Log.Carried
import BranchGate.Proofs.Log.Contexts
import BranchGate.Proofs.Log.Lines
import BranchGate.Proofs.Value.Json
import BranchGate.Proofs.Gate.Access
import BranchGate.Proofs.Gate.Indexes
import BranchGate.Proofs.Expr.Citations
import BranchGate.Proofs.Scan.Named
import BranchGate.Proofs.Gate.Wording
import BranchGate.Proofs.Gate.Reasons
import BranchGate.Proofs.Display
import BranchGate.Proofs.Mask.Projection
import BranchGate.Proofs.Rule.Runs
import BranchGate.Proofs.Expr.Walk
import BranchGate.Proofs.Value.Integers
