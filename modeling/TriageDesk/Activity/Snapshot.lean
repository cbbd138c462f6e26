/-
TriageDesk.Activity.Snapshot — what is known of an activity while it is
scheduled.

A snapshot counts the runs that have begun and those that have failed, and
keeps the moments of the latest ones. The latest error stays when a later run
succeeds.

Follows `ActivitySnapshot` and `ActivityTelemetry`: `begun`, `succeeded` and
`failed` are `mark_started`, `mark_success` and `mark_failure`.
-/
import TriageDesk.Activity.Basic
import TriageDesk.Time.Instant

namespace TriageDesk.Activity

open Time

/-- What is known of an activity while it is scheduled. -/
structure Snapshot where
  name : String
  schedule : String
  mode : Mode
  /-- Seconds from one run to the next. -/
  interval : Nat
  runs : Nat
  failures : Nat
  lastRun : Option Instant
  lastSuccess : Option Instant
  lastFailure : Option Instant
  lastError : Option String
  isRunning : Bool
deriving DecidableEq, Repr

namespace Snapshot

/-- The snapshot of an activity that has not run. -/
def ofActivity (a : Activity) : Snapshot :=
  ⟨a.name, a.schedule, a.mode, a.interval, 0, 0, none, none, none, none, false⟩

/-- A run has begun. -/
def begun (s : Snapshot) (moment : Instant) : Snapshot :=
  { s with runs := s.runs + 1, lastRun := some moment, isRunning := true }

/-- The run has succeeded. -/
def succeeded (s : Snapshot) (moment : Instant) : Snapshot :=
  { s with lastSuccess := some moment, isRunning := false }

/-- The run has failed. -/
def failed (s : Snapshot) (moment : Instant) (error : String) : Snapshot :=
  { s with
    failures := s.failures + 1, lastFailure := some moment, lastError := some error
    isRunning := false }

/-- A snapshot as a value. -/
def toJson (s : Snapshot) : Json :=
  let text (t : Option String) : Json := (t.map Json.string).getD .null
  let moment (t : Option Instant) : Json := text (t.map Instant.writeWithOffset)
  .ofMembers [("name", .string s.name), ("schedule", .string s.schedule),
    ("mode", .string s.mode.name), ("interval_secs", .nat s.interval),
    ("runs", .nat s.runs), ("failures", .nat s.failures),
    ("last_run_at", moment s.lastRun), ("last_success_at", moment s.lastSuccess),
    ("last_error_at", moment s.lastFailure), ("last_error", text s.lastError),
    ("is_running", .bool s.isRunning)]

end Snapshot

end TriageDesk.Activity
