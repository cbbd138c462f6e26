/-
TriageDesk.Program — the programs of the desk.

One program runs the activities, the other one also serves the pages. Both
load the configuration, choose the model and put the service together. Where
there is nothing to run the first one ends, and the second one fails.

Follows the beginnings of the two functions `main`, up to where the service
runs.
-/
import TriageDesk.Config.Sources
import TriageDesk.Log
import TriageDesk.Model.Choice
import TriageDesk.Service

namespace TriageDesk

/-- The programs of the desk. -/
inductive Program
  /-- Runs the activities. -/
  | headless
  /-- Runs the activities and serves the pages. -/
  | pages
deriving DecidableEq, Repr

namespace Program

/-- The programs with their names. -/
def named : List (String × Program) := [("secops", .headless), ("secops-web", .pages)]

/-- The topic of what a program itself reports. -/
def topic : Program → String
  | .headless => "secops"
  | .pages => "secops_web"

/-- Why a program fails: what it could not do and, if that is known, the cause. -/
structure Failure where
  reason : String
  cause : Option String
deriving DecidableEq, Repr

/-- A text with every line after the first moved in. -/
def movedIn (s : String) : String :=
  String.ofList (Text.replaceAll ['\n'] "\n    ".toList s.toList)

/-- A failure as it is shown. -/
def Failure.message (f : Failure) : String :=
  let cause := (f.cause.map fun cause => s!"\n\nCaused by:\n    {movedIn cause}").getD ""
  s!"Error: {f.reason}{cause}\n"

/-- What a program comes to once everything is put together. -/
inductive Beginning
  | failed (f : Failure)
  /-- There is nothing to run. -/
  | idle
  /-- The service is to run, with a model. -/
  | ready (s : Service) (c : Config) (model : Model.Choice)

/-- The model that a configuration wants. -/
def wanted (c : Config) : Model.Wanted :=
  { provider := c.model.provider, model := c.model.model, baseUrl := c.model.baseUrl
    keyVariable := c.model.keyVariable }

/-- Puts the service of a configuration together. -/
def assemble {World : Type} (p : Program) (environment : Table String) (c : Config) :
    Act World Beginning := do
  Act.report (.programStarting p.topic c.app.name)
  Act.each Act.report (Model.choiceEvents (wanted c) environment)
  match ← Service.ofConfig c with
  | .error refusal =>
    return .failed ⟨"Failed to build SecOps service", some s!"config error: {refusal.message}"⟩
  | .ok (some s) => return .ready s c (Model.choose (wanted c) environment)
  | .ok none =>
    match p with
    | .headless =>
      Act.report (.programIdle p.topic)
      return .idle
    | .pages =>
      return .failed ⟨"SecOps is disabled; enable [secops] to serve the proposal API", none⟩

/-- Begins a program where files are looked for, with an environment, and the path of a
configuration if one was named. -/
def startOn {World : Type} (p : Program) (h : Config.Host) (environment : Table String)
    (path : Option String) : Act World Beginning :=
  match h.load environment path with
  | .error f => return .failed ⟨"Failed to load config", some f.message⟩
  | .ok c => p.assemble environment c

/-- Begins a program where only the texts of files are known. -/
def start {World : Type} (p : Program) (file : String → Option String)
    (environment : Table String) (path : Option String) : Act World Beginning :=
  p.startOn (.ofFiles file) environment path

/-! ## The address of the pages -/

/-- The variable that sets the port of the pages. -/
def portVariable : String := "SECOPS_WEB_PORT"

/-- The port of the pages: the environment goes before the configuration. -/
def port (c : Config) (environment : Table String) : Nat :=
  let own := (environment.get? portVariable).bind fun s => Config.natural? s.toList
  (own.filter (· < Nat.pow 2 16)).getD c.web.port

/-- The address of the pages. -/
def address (c : Config) (environment : Table String) : String :=
  s!"{c.web.host}:{port c environment}"

/-- The failure of a program that cannot be reached at its address. -/
def unreachable (address cause : String) : Failure := ⟨s!"Failed to bind {address}", some cause⟩

end Program

end TriageDesk
