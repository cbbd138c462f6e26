/-
TriageDesk.Activity.Timeline — a scheduler in the course of time.

Time is a number of milliseconds and leaps from one moment at which something
happens to the next. At such a moment each loop that is concerned has its
turn: in a turn it ends a run whose time is up, goes if it has been told to,
begins a run that is due, and then waits again. Loops that wait for the same
moment have their turns in the order in which they began to wait.

The engine is a part of the surroundings: it says, when a run is handed to it,
how long it will work and how it will end.

Follows the tasks that `ActivityScheduler` spawns, and `stop_activity` and
`stop` as a whole, with their waits for the end of a task.
-/
import TriageDesk.Activity.Prompt
import TriageDesk.Activity.Scheduler

namespace TriageDesk.Activity

open Time

/-! ## Runs and their surroundings -/

/-- The channel of all activities. -/
def channel : String := "secops"

/-- What a run asks of the engine. -/
structure Call where
  prompt : String
  channel : String
  session : String
deriving DecidableEq, Repr

/-- The call of an activity. -/
def call (a : Activity) : Call := ⟨prompt a.name a.mode, channel, a.name⟩

/-- How a run ends once its work is done. -/
inductive Ending
  | returns (result : Except Agent.Failure String)
  /-- It goes on until everything is shut down, and is given up then. -/
  | awaitsShutdown
  | breaksDown

/-- What is to come of a run: milliseconds of work, and how it ends. -/
structure Plan where
  work : Nat
  ending : Ending

/-- What is in flight during a run. -/
inductive Job
  /-- The engine has not taken up the call yet. -/
  | asked (call : Call)
  | working (ends : Nat) (ending : Ending)
  /-- It waits for everything to be shut down. -/
  | held

/-- What loops find around them. -/
structure Surroundings (World : Type) where
  /-- The engine takes up a call at a time, and knows whether everything is shut down. -/
  answer : (now : Nat) → (shutDown : Bool) → Call → Act World Plan
  /-- Whether the world says that nothing is to run any more. -/
  shutDown : World → Bool
  /-- Reads the clock. -/
  clock : Act World Instant

/-- A loop that waits: until a time, or until it is told something. -/
structure Wait where
  loop : Nat
  till : Option Nat
deriving DecidableEq, Repr

/-- A scheduler in the course of time, beside the world. -/
structure Timeline (World : Type) where
  now : Nat
  scheduler : Scheduler Job
  /-- The loops that wait, in the order in which they began to. -/
  waits : List Wait
  world : World

namespace Timeline

variable {World α : Type}

/-- The start of time, with nothing scheduled. -/
def start (world : World) : Timeline World := ⟨0, .empty, [], world⟩

/-- Work on the scheduler. -/
def onScheduler (act : Act (Scheduler Job) α) : Act (Timeline World) α :=
  Act.within (·.scheduler) (fun scheduler t => { t with scheduler }) act

/-- Work on the world. -/
def onWorld (act : Act World α) : Act (Timeline World) α :=
  Act.within (·.world) (fun world t => { t with world }) act

/-- Work on the world, after which the scheduler is shut down if the world says so. -/
def inWorld (around : Surroundings World) (act : Act World α) : Act (Timeline World) α := do
  let result ← onWorld act
  if around.shutDown (← Act.look).world then onScheduler Scheduler.shutdown
  return result

/-! ## Turns -/

/-- Ends the run of a loop if its time is up, or if it only waited for the end of
everything. -/
def conclude (around : Surroundings World) (n : Nat) : Act (Timeline World) Unit := do
  let t ← Act.look
  let giveUp : Act (Timeline World) Unit := do
    onScheduler (Scheduler.endRun n (← onWorld around.clock) (.error .cancelled))
  match t.scheduler.job? n with
  | some (.working ends ending) =>
    if t.now < ends then return ()
    match ending with
    | .returns result => onScheduler (Scheduler.endRun n (← onWorld around.clock) result)
    | .breaksDown => onScheduler (Scheduler.abortRun n)
    | .awaitsShutdown =>
      if t.scheduler.shutDown then giveUp else onScheduler (Scheduler.proceed n .held)
  | some .held => if t.scheduler.shutDown then giveUp
  | _ => return ()

/-- Begins a run in a loop if one is due, and hands it to the engine. -/
def begin (around : Surroundings World) (n : Nat) : Act (Timeline World) Unit := do
  let t ← Act.look
  match t.scheduler.loops[n]? with
  | none => return ()
  | some l =>
    if (l.dueAfter? t.now).isNone then return ()
    let asked := call l.activity
    onScheduler (Scheduler.beginRun n t.now (← onWorld around.clock) (.asked asked))
    let plan ← inWorld around (around.answer t.now t.scheduler.shutDown asked)
    onScheduler (Scheduler.proceed n (.working (t.now + plan.work) plan.ending))

/-- What a loop waits for after its turn. -/
def wait? (s : Scheduler Job) (n : Nat) : Option Wait :=
  match s.loops[n]? with
  | some ⟨_, _, .waiting due⟩ => some ⟨n, some due⟩
  | some ⟨_, _, .running _ (.working ends _)⟩ => some ⟨n, some ends⟩
  | some ⟨_, _, .running _ .held⟩ => some ⟨n, none⟩
  | _ => none

/-- The turn of a loop. -/
def turn (around : Surroundings World) (n : Nat) : Act (Timeline World) Unit := do
  conclude around n
  onScheduler (Scheduler.leave n)
  begin around n
  conclude around n
  onScheduler (Scheduler.leave n)
  Act.change fun t => { t with waits := t.waits ++ (wait? t.scheduler n).toList }

/-- The loops among those that wait for which a condition holds have their turns. -/
def turnWaiting (around : Surroundings World) (concerned : Scheduler Job → Wait → Bool) :
    Act (Timeline World) Unit := do
  let t ← Act.look
  let (called, left) := t.waits.partition (concerned t.scheduler)
  Act.change fun t => { t with waits := left }
  Act.each (fun w => turn around w.loop) called

/-- Whether a loop that waits has been told something for which it does not wait any
longer. -/
def isTold (s : Scheduler Job) (w : Wait) : Bool :=
  match s.loops[w.loop]? with
  | some l =>
    match l.phase with
    | .waiting _ => s.isTold l
    | .running _ .held => s.shutDown
    | _ => false
  | none => false

/-- The loops that have not begun. -/
def unbegun (s : Scheduler Job) : List Nat :=
  s.loops.zipIdx.filterMap fun (l, n) => if l.phase matches .spawned then some n else none

/-- Everything happens that needs no time: loops begin, and those that have been told
something have their turns. -/
def settle (around : Surroundings World) : Act (Timeline World) Unit := do
  Act.each (turn around) (unbegun (← Act.look).scheduler)
  turnWaiting around isTold

/-! ## The course of time -/

/-- The next time for which a loop waits. -/
def nextTime? (t : Timeline World) : Option Nat := (t.waits.filterMap (·.till)).min?

/-- Time leaps to a moment, and everything happens that was to happen at it. -/
def leap (around : Surroundings World) (time : Nat) : Act (Timeline World) Unit := do
  Act.change fun t => { t with now := max t.now time }
  turnWaiting around fun _ w => w.till = some time
  settle around

/-- Lets time pass through at most so many moments before a limit, until a condition
holds; whether it holds in the end. -/
def leaps (around : Surroundings World) (done : Scheduler Job → Bool) (limit : Nat) :
    Nat → Act (Timeline World) Bool
  | 0 => return done (← Act.look).scheduler
  | moments + 1 => do
    let t ← Act.look
    if done t.scheduler then return true
    match nextTime? t with
    | some time =>
      if time < limit then
        leap around time
        leaps around done limit moments
      else
        Act.change fun t => { t with now := max t.now limit }
        return false
    | none =>
      Act.change fun t => { t with now := max t.now limit }
      return false

/-- Waits until a condition holds, but not longer than for so many milliseconds;
whether it holds in the end. Each moment at which something happens is later than the
one before, and only the first can be the present one. -/
def waitFor (around : Surroundings World) (done : Scheduler Job → Bool) (patience : Nat) :
    Act (Timeline World) Bool := do
  if done (← Act.look).scheduler then return true
  settle around
  let now := (← Act.look).now
  leaps around done (now + patience) (patience + 1)

/-- Lets milliseconds pass. -/
def pass (around : Surroundings World) (milliseconds : Nat) : Act (Timeline World) Unit := do
  if milliseconds = 0 then return ()
  let _ ← waitFor around (fun _ => false) milliseconds

/-! ## Stopping -/

/-- Stops an activity and waits for the end of its loop: whether it had a handle, or
nothing if patience ran out. -/
def stopActivity (around : Surroundings World) (patience : Nat) (name : String) :
    Act (Timeline World) (Option Bool) := do
  match ← onScheduler (Scheduler.beginStopActivity name) with
  | none => return some false
  | some n =>
    if ← waitFor around (·.isOver n) patience then
      onScheduler (Scheduler.reportEnd n)
      return some true
    else return none

/-- Stops everything and waits for the end of the loops that have a handle; whether
they ended before patience ran out. -/
def stop (around : Surroundings World) (patience : Nat) : Act (Timeline World) Bool := do
  let taken ← onScheduler Scheduler.beginStop
  if ← waitFor around (fun s => taken.all s.isOver) patience then
    onScheduler (Scheduler.endStop taken)
    return true
  else return false

end Timeline

end TriageDesk.Activity
