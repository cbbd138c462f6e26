/-
TriageDesk.Service — the desk at work, as a configuration wants it.

A service puts the three tools, the engine and the scheduler together. Its
activities run in the course of time, and reason with whatever model they are
given. When the service stops it waits for its activities first; only then are
the ways to other servers closed.

Follows `SecOpsService`: `from_config`, here `ofConfig`, `start` and `stop`;
and `ServiceCleanup`, here `cleanup`. The signal is the token that
`from_config` is given.
-/
import TriageDesk.Activity.Timeline
import TriageDesk.Agent.Engine
import TriageDesk.Catalog
import TriageDesk.Cleanup
import TriageDesk.Config.Basic
import TriageDesk.Tool.Disposal
import TriageDesk.Tool.Filing
import TriageDesk.Tool.Query

namespace TriageDesk

open Activity Agent

/-- What the desk works on, beside the state of a model. -/
structure Workplace (Model : Type) where
  desk : Desk
  model : Model
  /-- Whether the signal has been given that everything is to end. -/
  signalled : Bool

/-- The desk at work. -/
structure Service where
  activities : List Activity
  query : Query
  disposal : Disposal
  /-- How many seconds a call of a tool may take. -/
  toolTimeout : Nat
  maxSteps : Nat
  maxHistory : Nat

namespace Service

variable {Model α : Type}

/-! ## Making a service -/

/-- The service of a configuration that is enabled and sound. -/
def ofSections (c : Config) : Service :=
  let o := c.operations
  { activities := o.named
    query :=
      { templates := Catalog.queriesWith o.queries, baseUrl := o.clickhouse.url
        username := o.clickhouse.username, password := o.clickhouse.password }
    disposal :=
      .ofServer (Catalog.endpointsWith o.endpoints) o.sheikah.url o.sheikah.apiKey
    toolTimeout := c.toolTimeout
    maxSteps := c.model.maxSteps
    maxHistory := c.app.maxHistory }

/-- The service that a configuration wants, if it wants one; what it adds to the catalog
may be refused. -/
def ofConfig {World : Type} (c : Config) :
    Act World (Except Catalog.Refusal (Option Service)) := do
  if !c.operations.enabled then
    Act.report .serviceDisabled
    return .ok none
  match Catalog.refusal? c.operations.queries c.operations.endpoints with
  | some refusal => return .error refusal
  | none =>
    let s := ofSections c
    Act.report (.serviceTools s.query.templates.size s.disposal.endpoints.size)
    return .ok (some s)

/-! ## Reasoning -/

/-- The tools of a service. -/
def registry (s : Service) : Registry (Workplace Model) :=
  let lift := Tool.within (·.desk) fun desk (w : Workplace Model) => { w with desk }
  .ofTools [lift s.query.tool, lift s.disposal.tool, lift Filing.tool]

/-- How a model is asked. -/
abbrev Asking (Model : Type) :=
  List Message → Act (Workplace Model) (Option (Except String String))

/-- The engine of a service. -/
def engine (s : Service) (ask : Asking Model) : Engine (Workplace Model) :=
  { executor := .ofSeconds s.registry s.toolTimeout
    maxSteps := s.maxSteps
    maxHistory := s.maxHistory
    ask
    cancelled := (·.signalled) }

/-- A service in the course of time, with the sessions of its engine. -/
abbrev Course (Model : Type) := Timeline (Sessions (Workplace Model))

/-- A workplace at which nothing has been done. -/
def opening (supply : Supply) (model : Model) : Course Model :=
  .start ⟨∅, ⟨.fresh supply, model, false⟩⟩

/-- How a run ends: one that is given up has waited for the end of everything. -/
def ending : Except Agent.Failure String → Ending
  | .error .cancelled => .awaitsShutdown
  | result => .returns result

/-- What the loops of a service find around them. -/
def surroundings (s : Service) (ask : Asking Model) : Surroundings (Sessions (Workplace Model)) where
  answer := fun _ shutDown call => do
    let e := s.engine ask
    let e := if shutDown then { e with cancelled := fun _ => true } else e
    let result ← e.process call.prompt call.channel call.session
    return ⟨0, ending result⟩
  shutDown := fun w => w.world.signalled
  clock :=
    Act.within (·.world.desk) (fun desk w => { w with world := { w.world with desk } }) Desk.now

/-- Work on the desk of a service. -/
def onDesk (act : Act Desk α) : Act (Course Model) α :=
  Timeline.onWorld
    (Act.within (·.world.desk) (fun desk w => { w with world := { w.world with desk } }) act)

/-! ## Starting and stopping -/

/-- Starts the activities. -/
def start (s : Service) : Act (Course Model) Unit := do
  Act.report (.serviceStarting s.activities.length)
  Timeline.onScheduler (Scheduler.start s.activities)

/-- Stops the activities, waits for them, and closes the ways to other servers; whether
it came to that before patience ran out. -/
def stop (s : Service) (ask : Asking Model) (patience : Nat) : Act (Course Model) Bool := do
  if ← Timeline.stop (s.surroundings ask) patience then
    onDesk Desk.close
    Act.report .serviceStopped
    return true
  else return false

/-- The cleanup of a service. -/
def cleanup (s : Service) (ask : Asking Model) : Cleanup.Task (Course Model) where
  name := "SecOpsService"
  work := fun limit => do
    if ← s.stop ask limit then return some (.ok ()) else return none

/-- Gives the signal that everything is to end. -/
def signal (s : Service) (ask : Asking Model) : Act (Course Model) Unit :=
  Timeline.inWorld (s.surroundings ask)
    (Act.change fun w => { w with world := { w.world with signalled := true } })

/-- The messages kept of a session of the activities. -/
def history (course : Course Model) (session : String) : List Message :=
  Engine.history course.world channel session

end Service

end TriageDesk
