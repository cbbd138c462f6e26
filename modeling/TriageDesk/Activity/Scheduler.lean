/-
TriageDesk.Activity.Scheduler — the loops that run the activities.

Each activity that is started gets a loop. A loop runs its activity at once
and then whenever a run is due; while a run is in flight nothing else is
begun in that loop. A handle leads from the name of an activity to its loop;
only an activity without a handle can be started.

Everything that can happen is one move: `start`, the two halves of each kind
of stop, the begin and the end of a run, and the end of a loop. Stopping takes
the handles out of the table first and comes back only when their loops are
over, so other moves may come in between. What is in flight during a run is a
`Job`, of which a scheduler knows nothing.

Follows `ActivityScheduler`: `start`, `is_running`, `running_activities`,
`snapshots`, and `stop_activity` and `stop` in two halves each, since both wait
in between. The loop is `run_activity` with `execute_activity`: `beginRun`,
`endRun` and `leave` are its steps, and `abortRun` is the end of a loop whose
run panics.
-/
import TriageDesk.Act
import TriageDesk.Activity.Snapshot
import TriageDesk.Activity.Ticker
import TriageDesk.Agent.Failure
import TriageDesk.Table

namespace TriageDesk.Activity

open Time

/-! ## Loops -/

/-- How far a loop has come. -/
inductive Loop.Phase (Job : Type)
  /-- It has not begun. -/
  | spawned
  /-- A run is in flight, and the next one is due at a time. -/
  | running (due : Nat) (job : Job)
  /-- It waits until a run is due. -/
  | waiting (due : Nat)
  /-- It has ended as it was told to. -/
  | ended
  /-- It has broken down in a run. -/
  | aborted
deriving DecidableEq, Repr

/-- A loop that runs an activity. -/
structure Loop (Job : Type) where
  activity : Activity
  /-- Whether it has been told to end. -/
  stopped : Bool
  phase : Loop.Phase Job
deriving DecidableEq, Repr

namespace Loop

variable {Job : Type}

/-- Milliseconds from one run to the next. -/
def interval (l : Loop Job) : Nat := l.activity.interval * 1000

/-- Whether nothing more comes of a loop. -/
def isOver (l : Loop Job) : Bool :=
  match l.phase with
  | .ended | .aborted => true
  | _ => false

/-- When the run after the one that begins now is due; nothing if none can begin. -/
def dueAfter? (l : Loop Job) (now : Nat) : Option Nat :=
  match l.phase with
  | .spawned => some (now + l.interval)
  | .waiting due => if due ≤ now then some (Ticker.next l.interval due now) else none
  | _ => none

end Loop

/-! ## Schedulers -/

/-- The loops that run the activities. -/
structure Scheduler (Job : Type) where
  /-- The numbers of the loops that can be stopped, by the names of their activities. -/
  handles : Table Nat
  /-- All loops that were ever started; a loop keeps its number. -/
  loops : List (Loop Job)
  telemetry : Table Snapshot
  /-- Whether nothing is to run any more. -/
  shutDown : Bool

namespace Scheduler

variable {Job : Type}

/-- A scheduler in which nothing has been started. -/
def empty : Scheduler Job := ⟨∅, [], ∅, false⟩

/-- Whether an activity has a handle. -/
def isRunning (s : Scheduler Job) (name : String) : Bool := s.handles.contains name

/-- The names of the activities that have a handle, in ascending order. -/
def running (s : Scheduler Job) : List String := s.handles.keys

/-- What is known of every activity that was ever started, by ascending name. -/
def snapshots (s : Scheduler Job) : List Snapshot := s.telemetry.values

/-- Whether nothing more comes of a loop. -/
def isOver (s : Scheduler Job) (n : Nat) : Bool := s.loops[n]?.all Loop.isOver

/-- Whether a loop has been told to end, alone or with all others. -/
def isTold (s : Scheduler Job) (l : Loop Job) : Bool := l.stopped || s.shutDown

/-- A scheduler with a change of one loop. -/
def adjust (s : Scheduler Job) (n : Nat) (f : Loop Job → Loop Job) : Scheduler Job :=
  { s with loops := s.loops.modify n f }

/-- A scheduler with a loop in another phase. -/
def setPhase (s : Scheduler Job) (n : Nat) (phase : Loop.Phase Job) : Scheduler Job :=
  s.adjust n fun l => { l with phase }

/-- A scheduler with a change of what is known of an activity. -/
def note (s : Scheduler Job) (name : String) (f : Snapshot → Snapshot) : Scheduler Job :=
  match s.telemetry.get? name with
  | some snapshot => { s with telemetry := s.telemetry.insert name (f snapshot) }
  | none => s

/-! ## Starting -/

/-- A scheduler with a new loop for an activity, and a handle on it. -/
def spawn (s : Scheduler Job) (a : Activity) : Scheduler Job :=
  { s with
    handles := s.handles.insert a.name s.loops.length
    loops := s.loops ++ [⟨a, false, .spawned⟩]
    telemetry := s.telemetry.insert a.name (.ofActivity a) }

/-- Starts an activity, if it is enabled and has no handle. -/
def startOne (a : Activity) : Act (Scheduler Job) Unit := do
  if !a.enabled then Act.report (.activityDisabled a.name)
  else if (← Act.look).isRunning a.name then Act.report (.activitySkipped a.name)
  else Act.change fun s => s.spawn a

/-- Starts activities, unless nothing is to run any more. -/
def start (activities : List Activity) : Act (Scheduler Job) Unit := do
  if (← Act.look).shutDown then Act.report .schedulerShutDown
  else
    Act.report (.schedulerStarting activities.length)
    Act.each startOne activities

/-! ## Stopping -/

/-- Takes the handle of an activity and tells its loop to end; the number of the loop. -/
def beginStopActivity (name : String) : Act (Scheduler Job) (Option Nat) := do
  match (← Act.look).handles.get? name with
  | none => return none
  | some n =>
    Act.change fun s =>
      { s.adjust n (fun l => { l with stopped := true }) with handles := s.handles.erase name }
    return some n

/-- Reports a loop that did not end as it was told to. -/
def reportEnd (n : Nat) : Act (Scheduler Job) Unit := do
  match (← Act.look).loops[n]? with
  | some ⟨a, _, .aborted⟩ => Act.report (.activityAborted a.name "the run broke down")
  | _ => return ()

/-- Says that nothing is to run any more. -/
def shutdown : Act (Scheduler Job) Unit := Act.change fun s => { s with shutDown := true }

/-- Says that nothing is to run any more, takes all handles and tells their loops to
end; the numbers of these loops. -/
def beginStop : Act (Scheduler Job) (List Nat) := do
  shutdown
  let taken := (← Act.look).handles.values
  Act.change fun s => { s with
    handles := ∅
    loops := s.loops.mapIdx fun n l => if n ∈ taken then { l with stopped := true } else l }
  return taken

/-- Comes back from a stop when the loops that it took are over. -/
def endStop (taken : List Nat) : Act (Scheduler Job) Unit := do
  if taken.isEmpty then return ()
  Act.each reportEnd taken
  Act.report .schedulerStopped

/-! ## Runs -/

/-- Begins a run with a job, if one is due. -/
def beginRun (n now : Nat) (moment : Instant) (job : Job) : Act (Scheduler Job) Unit := do
  match (← Act.look).loops[n]? with
  | none => return ()
  | some l =>
    match l.dueAfter? now with
    | none => return ()
    | some due =>
      if l.phase matches .spawned then
        Act.report (.activityStarted l.activity.name l.activity.interval l.activity.mode.name)
      Act.report (.activityExecuting l.activity.name)
      Act.change fun s =>
        (s.setPhase n (.running due job)).note l.activity.name fun known => known.begun moment

/-- The job of the run in flight in a loop. -/
def job? (s : Scheduler Job) (n : Nat) : Option Job :=
  match s.loops[n]? with
  | some ⟨_, _, .running _ job⟩ => some job
  | _ => none

/-- Puts another job in the place of the one in flight. -/
def proceed (n : Nat) (job : Job) : Act (Scheduler Job) Unit :=
  Act.change fun s => s.adjust n fun l =>
    match l.phase with
    | .running due _ => { l with phase := .running due job }
    | _ => l

/-- How many characters of a reply are reported. -/
def replyShown : Nat := 200

/-- Ends the run in flight with its result. -/
def endRun (n : Nat) (moment : Instant) (result : Except Agent.Failure String) :
    Act (Scheduler Job) Unit := do
  match (← Act.look).loops[n]? with
  | some ⟨a, _, .running due _⟩ =>
    Act.change fun s => s.setPhase n (.waiting due)
    match result with
    | .ok reply =>
      Act.report (.activityCompleted a.name (Text.firstChars replyShown reply))
      Act.change fun s => s.note a.name fun known => known.succeeded moment
    | .error f =>
      Act.report (.activityFailed a.name f.message)
      Act.change fun s => s.note a.name fun known => known.failed moment f.message
  | _ => return ()

/-- The run in flight breaks down, and its loop with it. -/
def abortRun (n : Nat) : Act (Scheduler Job) Unit :=
  Act.change fun s => s.adjust n fun l =>
    match l.phase with
    | .running .. => { l with phase := .aborted }
    | _ => l

/-- Ends a loop that waits and has been told to end. -/
def leave (n : Nat) : Act (Scheduler Job) Unit :=
  Act.change fun s => s.adjust n fun l =>
    match l.phase with
    | .waiting _ => if s.isTold l then { l with phase := .ended } else l
    | _ => l

end Scheduler

end TriageDesk.Activity
