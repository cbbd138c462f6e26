/-
TriageDesk.Agent.Failure — why a piece of reasoning, or a tool in it, fails.

Follows `AgentError`.
-/

namespace TriageDesk.Agent

/-- Why a piece of reasoning, or a tool in it, fails. -/
inductive Failure
  | unreadableCall (reason : String)
  | toolFailed (reason : String)
  | toolTimedOut (tool : String)
  | modelFailed (reason : String)
  | tooManySteps (limit : Nat)
  | cancelled
deriving DecidableEq, Repr, Inhabited

/-- A failure in words. -/
def Failure.message : Failure → String
  | .unreadableCall reason => s!"JSON parse error: {reason}"
  | .toolFailed reason => s!"Tool execution failed: {reason}"
  | .toolTimedOut tool => s!"Tool timeout: {tool}"
  | .modelFailed reason => s!"LLM error: {reason}"
  | .tooManySteps limit => s!"Max reasoning steps exceeded: {limit}"
  | .cancelled => "Cancelled"

end TriageDesk.Agent
