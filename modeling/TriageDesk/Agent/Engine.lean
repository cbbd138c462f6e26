/-
TriageDesk.Agent.Engine — reasoning with a model and tools, in sessions.

An engine keeps the latest messages of each session. A piece of reasoning
starts from those of its session, runs until it ends, and its conversation
is kept if it ended with an answer or used up its steps. Whatever waits for
the model or for a tool is given up as soon as the world says so.

Follows `ReactEngine`: `process`, `history`, `session_key`, `system_prompt`,
and `save_history`, which is part of `remember`.
-/
import TriageDesk.Agent.Run
import TriageDesk.Tool.Executor

namespace TriageDesk.Agent

open Text

/-- An engine of reasoning. -/
structure Engine (World : Type) where
  executor : Executor World
  /-- How many steps a run may take, at least one. -/
  maxSteps : Nat
  /-- How many messages of a session are kept. -/
  maxHistory : Nat
  /-- Asks the model; nothing comes of a wait that never ends. -/
  ask : List Message → Act World (Option (Except String String))
  /-- Whether the world says that waits are to be given up. -/
  cancelled : World → Bool

/-- The messages kept of each session, beside the world. -/
structure Sessions (World : Type) where
  histories : Table (List Message)
  world : World

namespace Engine

variable {World : Type}

/-- How many steps a run may take where nothing else is said. -/
def usualSteps : Nat := 12

/-- How many messages are kept where nothing else is said. -/
def usualHistory : Nat := 40

/-! ## Instructions -/

/-- The first line of the instructions. -/
def mission : String :=
  "You are a security operations analyst. Investigate with the tools below and act only on evidence."

/-- The instructions of the model: its task, the tools, and how to call one. -/
def systemPrompt (e : Engine World) : String :=
  let lines := e.executor.registry.descriptions.map fun (name, description) =>
    s!"- {name}: {description}"
  mission ++ "\n\nAvailable tools:\n" ++ joined "\n" lines ++ "\n\n" ++
    "To call a tool, reply with exactly one JSON object: \x7b\"tool\": \"tool_name\", \"args\": \x7b...\x7d\x7d.\n" ++
    "After each call you will receive an observation. When the task is finished, reply with a plain-text summary."

/-! ## Sessions -/

/-- The key under which the messages of a session are kept. -/
def sessionKey (channel session : String) : String := s!"{channel}:{session}"

/-- The last messages of a conversation, at most so many. -/
def lastMessages (n : Nat) (conversation : List Message) : List Message :=
  conversation.drop (conversation.length - n)

/-- The messages kept of a session. -/
def history (s : Sessions World) (channel session : String) : List Message :=
  (s.histories.get? (sessionKey channel session)).getD []

/-! ## The course of a run -/

/-- Reports events. -/
def reportAll (events : List Event) : Act World Unit := fun w => ⟨(), w, events⟩

/-- Waits for the next thing to happen to a run. -/
def advance (e : Engine World) (r : Run) : Act World Run := do
  match r.phase with
  | .ended _ => return r
  | .asking =>
    let reply ← e.ask r.request
    if e.cancelled (← Act.look) then return r.cancel
    match reply with
    | none => return r.cancel
    | some reply =>
      let (r, events) := r.hear reply
      reportAll events
      return r
  | .performing c output =>
    let outcome ← e.executor.registry.run c.tool c.args
    if e.cancelled (← Act.look) then return r.cancel
    let result ← e.executor.conclude c.tool c.args outcome
    let (r, events) := r.observe c output result
    reportAll events
    return r

/-- Lets up to so many things happen to a run. -/
def advances (e : Engine World) : Nat → Run → Act World Run
  | 0, r => return r
  | n + 1, r => do
    match r.phase with
    | .ended _ => return r
    | _ => advances e n (← e.advance r)

/-- Runs a piece of reasoning to its end. In each of its steps at most two things
happen: a reply comes, and a call ends. -/
def finish (e : Engine World) (r : Run) : Act World Run :=
  e.advances (2 * (r.limit - r.step)) r

/-- The result of a run that has ended; a run that has not is one given up. -/
def result (r : Run) : Except Failure String :=
  match r.phase with
  | .ended result => result
  | _ => .error .cancelled

/-- Keeps the conversation of a run, if it is one to be kept. -/
def remember (e : Engine World) (r : Run) (histories : Table (List Message)) :
    Table (List Message) :=
  if Run.isRemembered (result r) then
    histories.insert r.session (lastMessages e.maxHistory r.conversation)
  else histories

/-- Reasons about a prompt in a session. -/
def process (e : Engine World) (prompt channel session : String) :
    Act (Sessions World) (Except Failure String) := do
  let s ← Act.look
  if e.cancelled s.world then return .error .cancelled
  let r := Run.start (sessionKey channel session) e.systemPrompt (max e.maxSteps 1)
    (history s channel session) prompt
  let r ← Act.within (·.world) (fun world s => { s with world }) (e.finish r)
  Act.change fun s => { s with histories := e.remember r s.histories }
  return result r

end Engine

end TriageDesk.Agent
