/-
TriageDesk.Event — what the desk reports while it works.

An event says what has happened. Each has a level, the topic under which it
is filed, a message and some fields; `Event.line` writes it as a line of the
log.

Follows the records that all parts of the program write to the log, with the
layout of `init`.
-/
import TriageDesk.Json.Printer
import TriageDesk.Text.Quoted
import TriageDesk.Text.Search

namespace TriageDesk

/-- How much an event matters. -/
inductive Event.Level
  | debug
  | info
  | warn
  | error
deriving DecidableEq, Repr, Inhabited

/-- How a call of a tool went. -/
inductive Event.Verdict
  | succeeded
  | failed
  | timedOut
deriving DecidableEq, Repr, Inhabited

/-- Something that has happened. -/
inductive Event
  -- proposals
  | proposalReplaced (id oldStatus oldTitle : String)
  | proposalCreated (id kind title : String)
  | notificationSkippedFull (id : String)
  | notificationSkippedClosed (id : String)
  | proposalDecided (id kind title status : String)
  | proposalResubmitted (id kind title : String)
  -- tools
  | queryRun (sql : String)
  | disposalSent (api method url : String)
  | toolAudited (tool : String) (verdict : Event.Verdict) (arguments : String)
  -- reasoning
  | toolCalled (session : String) (step : Nat) (tool : String)
  | toolObserved (session tool observation : String)
  | callUnreadable (session : String) (step : Nat)
  | modelScripted
  | modelKeyMissing
  | modelRemote (model : String) (baseUrl : Option String)
  -- activities
  | schedulerStarting (activities : Nat)
  | schedulerShutDown
  | schedulerStopped
  | activityDisabled (activity : String)
  | activitySkipped (activity : String)
  | activityStarted (activity : String) (seconds : Nat) (mode : String)
  | activityExecuting (activity : String)
  | activityCompleted (activity reply : String)
  | activityFailed (activity error : String)
  | activityAborted (activity error : String)
  -- service
  | serviceDisabled
  | serviceTools (queries apis : Nat)
  | serviceStarting (activities : Nat)
  | serviceStopped
  | cleanupRunning (tasks : Nat)
  | cleanupDone (task : String)
  | cleanupFailed (task error : String)
  | cleanupTimedOut (task : String) (seconds : Nat)
  | applicationFinished
  | shutdownSignalled
  | notificationsTaken
  -- programs
  | programStarting (program app : String)
  | programIdle (program : String)
deriving DecidableEq, Repr

namespace Event

/-! ## Levels, topics and messages -/

/-- How much an event matters. -/
def level : Event → Level
  | .toolCalled .. | .toolObserved .. | .queryRun .. => .debug
  | .proposalReplaced .. | .notificationSkippedFull .. | .notificationSkippedClosed .. => .warn
  | .callUnreadable .. | .modelKeyMissing | .schedulerShutDown | .activitySkipped .. => .warn
  | .activityAborted .. | .cleanupFailed .. | .cleanupTimedOut .. | .notificationsTaken => .warn
  | .activityFailed .. => .error
  | _ => .info

/-- The name of a level. -/
def Level.name : Level → String
  | .debug => "debug"
  | .info => "info"
  | .warn => "warn"
  | .error => "error"

/-- The topic under which an event is filed. -/
def topic : Event → String
  | .proposalReplaced .. | .proposalCreated .. | .notificationSkippedFull ..
  | .notificationSkippedClosed .. | .proposalDecided .. | .proposalResubmitted .. =>
    "secops::secops::proposal"
  | .queryRun .. => "secops::tools::query_data"
  | .disposalSent .. => "secops::tools::sheikah_api"
  | .toolAudited .. => "secops::tools::executor"
  | .toolCalled .. | .toolObserved .. | .callUnreadable .. => "secops::agent::react"
  | .modelScripted | .modelKeyMissing | .modelRemote .. => "secops::llm"
  | .schedulerStarting .. | .schedulerShutDown | .schedulerStopped | .activityDisabled ..
  | .activitySkipped .. | .activityStarted .. | .activityExecuting .. | .activityCompleted ..
  | .activityFailed .. | .activityAborted .. => "secops::secops::scheduler"
  | .serviceDisabled | .serviceTools .. | .serviceStarting .. | .serviceStopped =>
    "secops::secops::service"
  | .cleanupRunning .. | .cleanupDone .. | .cleanupFailed .. | .cleanupTimedOut ..
  | .applicationFinished | .shutdownSignalled => "secops::core::shutdown"
  | .notificationsTaken => "secops::web"
  | .programStarting program _ | .programIdle program => program

/-- What an event says. -/
def message : Event → String
  | .proposalReplaced .. => "Proposal id already exists, replacing stored proposal"
  | .proposalCreated .. => "Proposal created"
  | .notificationSkippedFull .. => "Proposal channel full, notification skipped"
  | .notificationSkippedClosed .. => "Proposal channel closed, notification skipped"
  | .proposalDecided .. => "Proposal decided"
  | .proposalResubmitted .. => "Proposal resubmitted with modified params"
  | .queryRun .. => "query_data"
  | .disposalSent .. => "sheikah_api"
  | .toolAudited .. => "tool"
  | .toolCalled .. => "tool call"
  | .toolObserved .. => "observation"
  | .callUnreadable .. => "invalid tool call JSON, asking to retry"
  | .modelScripted => "Using mock LLM"
  | .modelKeyMissing => "No LLM API key found in environment; requests will likely fail"
  | .modelRemote .. => "Using OpenAI-compatible LLM"
  | .schedulerStarting .. => "Starting activity scheduler"
  | .schedulerShutDown => "Activity scheduler already shut down, start ignored"
  | .schedulerStopped => "Activity scheduler stopped"
  | .activityDisabled .. => "Activity is disabled"
  | .activitySkipped .. => "Activity already running, skipped"
  | .activityStarted .. => "Activity started"
  | .activityExecuting .. => "Executing activity"
  | .activityCompleted .. => "Activity completed"
  | .activityFailed .. => "Activity failed"
  | .activityAborted .. => "Activity task ended abnormally"
  | .serviceDisabled => "SecOps service is disabled"
  | .serviceTools .. => "SecOps tools registered"
  | .serviceStarting .. => "Starting SecOps service"
  | .serviceStopped => "SecOps service stopped"
  | .cleanupRunning .. => "Running cleanup"
  | .cleanupDone .. => "Cleanup done"
  | .cleanupFailed .. => "Cleanup failed"
  | .cleanupTimedOut .. => "Cleanup timed out"
  | .applicationFinished => "Application finished"
  | .shutdownSignalled => "Shutdown signal received"
  | .notificationsTaken => "Proposal notifications already taken, /api/events will stay silent"
  | .programStarting .. => "Starting"
  | .programIdle .. => "Nothing to run, exiting"

/-! ## Fields -/

/-- The value of a field: a number, a text shown as it is, or a text that a line
shows in quotes. -/
inductive Value
  | number (n : Nat)
  | shown (text : String)
  | named (text : String)
deriving DecidableEq, Repr

/-- The name of a verdict. -/
def Verdict.name : Verdict → String
  | .succeeded => "ok"
  | .failed => "error"
  | .timedOut => "timeout"

/-- The record of a call of a tool. -/
def audit (tool : String) (verdict : Verdict) (arguments : String) : Json :=
  .ofMembers [("event", .string "tool_audit"), ("tool", .string tool),
    ("ok", .bool (verdict = .succeeded)), ("outcome", .string verdict.name),
    ("args_preview", .string arguments)]

/-- A text that may be missing, with a mark of its presence. -/
def presence : Option String → String
  | some s => s!"Some({Text.quoted s})"
  | none => "None"

/-- The fields of an event, in the order in which a line shows them. -/
def fields : Event → List (String × Value)
  | .proposalReplaced id oldStatus oldTitle =>
    [("id", .shown id), ("old_status", .shown oldStatus), ("old_title", .shown oldTitle)]
  | .proposalCreated id kind title =>
    [("id", .shown id), ("kind", .shown kind), ("title", .shown title)]
  | .notificationSkippedFull id | .notificationSkippedClosed id => [("id", .shown id)]
  | .proposalDecided id kind title status =>
    [("id", .shown id), ("kind", .shown kind), ("title", .shown title), ("status", .shown status)]
  | .proposalResubmitted id kind title =>
    [("id", .shown id), ("kind", .shown kind), ("title", .shown title)]
  | .queryRun sql => [("sql", .shown sql)]
  | .disposalSent api method url =>
    [("api", .shown api), ("method", .shown method), ("url", .shown url)]
  | .toolAudited tool verdict arguments =>
    [("audit", .shown (audit tool verdict arguments).compact)]
  | .toolCalled session step tool =>
    [("session", .shown session), ("step", .number step), ("tool", .shown tool)]
  | .toolObserved session tool observation =>
    [("session", .shown session), ("tool", .shown tool), ("observation", .shown observation)]
  | .callUnreadable session step => [("session", .shown session), ("step", .number step)]
  | .modelRemote model baseUrl =>
    [("model", .shown model), ("base_url", .shown (presence baseUrl))]
  | .schedulerStarting n | .serviceStarting n => [("activities", .number n)]
  | .activityDisabled a | .activitySkipped a | .activityExecuting a => [("activity", .shown a)]
  | .activityStarted a seconds mode =>
    [("activity", .shown a), ("interval_secs", .number seconds), ("mode", .shown mode)]
  | .activityCompleted a reply => [("activity", .shown a), ("reply", .shown reply)]
  | .activityFailed a error | .activityAborted a error =>
    [("activity", .shown a), ("error", .shown error)]
  | .serviceTools queries apis => [("queries_count", .number queries), ("apis_count", .number apis)]
  | .cleanupRunning n => [("tasks", .number n)]
  | .cleanupDone task => [("task", .named task)]
  | .cleanupFailed task error => [("task", .named task), ("error", .shown error)]
  | .cleanupTimedOut task seconds => [("task", .named task), ("timeout_secs", .number seconds)]
  | .programStarting _ app => [("app", .shown app)]
  | .modelScripted | .modelKeyMissing | .schedulerShutDown | .schedulerStopped
  | .serviceDisabled | .serviceStopped | .applicationFinished | .shutdownSignalled
  | .notificationsTaken | .programIdle _ => []

/-! ## Writing -/

/-- The value of a field in a line. -/
def Value.write : Value → String
  | .number n => toString n
  | .shown s => s
  | .named s => Text.quoted s

/-- The value of a field on its own. -/
def Value.toJson : Value → Json
  | .number n => .nat n
  | .shown s | .named s => .string s

/-- An event as a line of the log. -/
def line (e : Event) : String :=
  let shown := e.fields.map fun (name, value) => s!" {name}={value.write}"
  s!"{Text.asciiUpper e.level.name} {e.topic}: {e.message}{String.join shown}"

end Event

end TriageDesk
