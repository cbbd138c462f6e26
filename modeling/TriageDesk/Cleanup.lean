/-
TriageDesk.Cleanup — what is done when the desk closes.

Tasks are done one after the other in the order in which they were entered.
Each may take only so long; one that fails or takes longer is reported, and
the next one begins. `Course` describes a task by the time it takes, and a
`Diary` keeps when such tasks begin and end.

Follows `ShutdownCoordinator`: a `Task` is a `ShutdownCleanup`, and `run` is
`run_cleanup`.
-/
import TriageDesk.Act

namespace TriageDesk.Cleanup

/-! ## Tasks -/

/-- A task of the cleanup. -/
structure Task (World : Type) where
  name : String
  /-- Works for at most so many milliseconds: the result, or nothing if there was none
  by then. -/
  work : Nat → Act World (Option (Except String Unit))

variable {World : Type}

/-- How many seconds a task may take where nothing else is said. -/
def usualTimeout : Nat := 5

/-- What is reported of a task that could work for so many seconds. -/
def outcome (timeout : Nat) (name : String) : Option (Except String Unit) → Event
  | some (.ok ()) => .cleanupDone name
  | some (.error reason) => .cleanupFailed name reason
  | none => .cleanupTimedOut name timeout

/-- Does a task and reports what became of it. -/
def perform (timeout : Nat) (t : Task World) : Act World Unit := do
  Act.report (outcome timeout t.name (← t.work (timeout * 1000)))

/-- Does all tasks, each of which may take so many seconds. -/
def run (timeout : Nat) (tasks : List (Task World)) : Act World Unit := do
  Act.report (.cleanupRunning tasks.length)
  Act.each (perform timeout) tasks

/-! ## Tasks that take their time -/

/-- A task seen from outside: how long it takes, if it ever ends, and its result. -/
structure Course where
  name : String
  delay : Option Nat
  result : Except String Unit
deriving Repr

/-- What is noted of a task. -/
inductive Note
  | begins (task : String)
  | ends (task : String)
deriving DecidableEq, Repr

/-- The time in milliseconds, and what was noted when. -/
structure Diary where
  now : Nat
  notes : List (Nat × Note)
deriving DecidableEq, Repr

/-- Makes a note. -/
def jot (note : Note) : Act Diary Unit :=
  Act.change fun d => { d with notes := d.notes ++ [(d.now, note)] }

/-- Lets time pass. -/
def pass (milliseconds : Nat) : Act Diary Unit :=
  Act.change fun d => { d with now := d.now + milliseconds }

/-- How long a task works that may work only so long. -/
def Course.spent (c : Course) (limit : Nat) : Nat :=
  match c.delay with
  | some delay => min delay limit
  | none => limit

/-- What becomes of a task that may work only so long. -/
def Course.resultWithin (c : Course) (limit : Nat) : Option (Except String Unit) :=
  match c.delay with
  | some delay => if delay ≤ limit then some c.result else none
  | none => none

/-- The task of a course. -/
def Course.task (c : Course) : Task Diary where
  name := c.name
  work := fun limit => do
    jot (.begins c.name)
    pass (c.spent limit)
    match c.resultWithin limit with
    | some result =>
      jot (.ends c.name)
      return some result
    | none => return none

/-! ## Applications -/

/-- What happens first, and when: the application finishes or the signal comes. -/
def firstOf (finish signal : Option Nat) : Option (Nat × Event) :=
  match finish, signal with
  | some f, some s => if f ≤ s then some (f, .applicationFinished) else some (s, .shutdownSignalled)
  | some f, none => some (f, .applicationFinished)
  | none, some s => some (s, .shutdownSignalled)
  | none, none => none

/-- Runs an application until it finishes or the signal comes, and then the cleanup. -/
def runAfter (finish signal : Option Nat) (timeout : Nat) (courses : List Course) :
    Act Diary Unit := do
  match firstOf finish signal with
  | some (time, event) =>
    pass time
    Act.report event
    run timeout (courses.map Course.task)
  | none => return ()

end TriageDesk.Cleanup
