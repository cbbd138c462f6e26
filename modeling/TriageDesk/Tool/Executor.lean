/-
TriageDesk.Tool.Executor — calls of tools, each with a limit of time and a
record.

A call that has not returned at its limit has timed out. Every call that
ends is recorded with its verdict and the beginning of its arguments.

Follows `ToolExecutor`: `execute`, with `args_preview`.
-/
import TriageDesk.Agent.Failure
import TriageDesk.Tool.Registry

namespace TriageDesk

open Agent Text

/-- Calls the tools of a registry. -/
structure Executor (World : Type) where
  registry : Registry World
  /-- The limit of time of a call, in milliseconds. -/
  limit : Nat

namespace Executor

variable {World : Type}

/-- The executor with a limit in seconds, of at least one second. -/
def ofSeconds (registry : Registry World) (seconds : Nat) : Executor World :=
  ⟨registry, max seconds 1 * 1000⟩

/-- How many characters of the arguments a record shows. -/
def previewLength : Nat := 200

/-- How a call ended. -/
def verdict (limit : Nat) : Tool.Outcome → Event.Verdict
  | .returned after result =>
    if limit < after then .timedOut
    else
      match result with
      | .ok _ => .succeeded
      | .error _ => .failed
  | .hangs => .timedOut

/-- The result of a call. -/
def result (limit : Nat) (name : String) : Tool.Outcome → Except Failure String
  | .returned after result =>
    if limit < after then .error (.toolTimedOut name) else result.mapError .toolFailed
  | .hangs => .error (.toolTimedOut name)

/-- Records a call that has ended. -/
def conclude (x : Executor World) (name : String) (args : Json) (outcome : Tool.Outcome) :
    Act World (Except Failure String) := do
  Act.report (.toolAudited name (verdict x.limit outcome) (shortened previewLength args.compact))
  return result x.limit name outcome

/-- Calls a tool. -/
def execute (x : Executor World) (name : String) (args : Json) :
    Act World (Except Failure String) := do
  x.conclude name args (← x.registry.run name args)

end Executor

end TriageDesk
