/-
TriageDesk.Agent.Run — one piece of reasoning, step by step.

In each step the model is asked, with the instructions at the head of the
conversation so far. A final answer ends the run. A call of a tool is
performed, and what came of it, or what was wrong with the call, is put
behind the conversation for the next step. A run also ends when its steps
are used up, when the model fails, and when it is cancelled; nothing else
ends it.

`Run.hear`, `Run.observe` and `Run.cancel` are the three things that can
happen to a run.

Follows the loop of `process` between `start` and the end, with `retry_prompt`
and `preview`; `Run.cancel` is its way out at a token that was cancelled.
-/
import TriageDesk.Agent.Failure
import TriageDesk.Agent.Message
import TriageDesk.Agent.Reply
import TriageDesk.Event

namespace TriageDesk.Agent

open Text

/-- What a run waits for. -/
inductive Run.Phase
  /-- A reply of the model. -/
  | asking
  /-- The end of a call, which the model made with the given words. -/
  | performing (call : Call) (output : String)
  /-- Nothing. -/
  | ended (result : Except Failure String)

/-- One piece of reasoning. -/
structure Run where
  /-- The session to which it belongs. -/
  session : String
  /-- The instructions for the model. -/
  system : String
  /-- How many steps it may take. -/
  limit : Nat
  /-- How many steps it has taken. -/
  step : Nat
  conversation : List Message
  phase : Run.Phase

namespace Run

/-! ## Texts -/

/-- What the model is told about a call that cannot be read. -/
def retryPrompt (reason : String) : String :=
  s!"Your previous output was not valid JSON: {reason}. " ++
    "When calling a tool, output exactly one JSON object and nothing else, " ++
    "in the form \x7b\"tool\": \"tool_name\", \"args\": \x7b...\x7d\x7d. " ++
    "When you are done, reply with plain text only."

/-- What a call has shown. -/
def observation : Except Failure String → String
  | .ok text => text
  | .error f => s!"Error: {f.message}"

/-- How many characters of an observation are reported. -/
def previewLength : Nat := 200

/-! ## The course of a run -/

/-- A run about to ask the model for the first time. -/
def start (session system : String) (limit : Nat) (history : List Message) (prompt : String) : Run :=
  { session, system, limit, step := 0
    conversation := history ++ [⟨.user, prompt⟩]
    phase := .asking }

/-- What the model is asked. -/
def request (r : Run) : List Message := ⟨.system, r.system⟩ :: r.conversation

/-- The run after a step that did not end it, with the messages of the step. -/
def next (r : Run) (said : List Message) : Run :=
  { r with
    step := r.step + 1
    conversation := r.conversation ++ said
    phase := if r.step + 1 < r.limit then .asking else .ended (.error (.tooManySteps r.limit)) }

/-- The run after a reply of the model, or its failure, and what is reported. -/
def hear (r : Run) (reply : Except String String) : Run × List Event :=
  match reply with
  | .error reason => ({ r with phase := .ended (.error (.modelFailed reason)) }, [])
  | .ok output =>
    match Reply.read output with
    | .ok (.answer text) =>
      ({ r with
          conversation := r.conversation ++ [⟨.assistant, text⟩]
          phase := .ended (.ok text) }, [])
    | .ok (.call c) =>
      ({ r with phase := .performing c output }, [.toolCalled r.session r.step c.tool])
    | .error reason =>
      (r.next [⟨.assistant, output⟩, ⟨.user, retryPrompt reason⟩],
        [.callUnreadable r.session r.step])

/-- The run after the end of a call, and what is reported. -/
def observe (r : Run) (c : Call) (output : String) (result : Except Failure String) :
    Run × List Event :=
  let text := observation result
  (r.next [⟨.assistant, output⟩, ⟨.user, s!"Observation from {c.tool}: {text}"⟩],
    [.toolObserved r.session c.tool (shortened previewLength text)])

/-- The run after it was cancelled. -/
def cancel (r : Run) : Run :=
  match r.phase with
  | .ended _ => r
  | _ => { r with phase := .ended (.error .cancelled) }

/-- Whether the conversation of a run that has ended is remembered: after an
answer, and when the steps were used up. -/
def isRemembered : Except Failure String → Bool
  | .ok _ => true
  | .error (.tooManySteps _) => true
  | .error _ => false

end Run

end TriageDesk.Agent
