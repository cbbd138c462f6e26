/-
TriageDesk.Proofs.Activity.Recording — histories of a scheduler in time, with a
record of the runs.

A history is a list of `Command`s: activities are started and stopped, the world
is worked on, and time passes. Surroundings that keep a record (`recording`) do
what those without one do, and note each run that is handed to the engine.

A record changes nothing (`Timeline.shows_perform`, `Timeline.forget_after`): with
it and without it a command has the same result, reports the same events and
leaves the same timeline but for the record.
-/
import TriageDesk.Proofs.Activity.Course
import TriageDesk.Proofs.Activity.Rhythm

namespace TriageDesk.Act

variable {World Part α β : Type}

/-! ## Work that shows in a part of the world -/

/-- Work on a whole that shows in a part of it as other work. -/
def Shows (part : World → Part) (act : Act World α) (shown : Act Part α) : Prop :=
  ∀ w, (act w).result = (shown (part w)).result ∧ part (act w).world = (shown (part w)).world ∧
    (act w).events = (shown (part w)).events

namespace Shows

variable {part : World → Part}

theorem pure (a : α) : Shows part (Pure.pure a) (Pure.pure a) := fun _ => ⟨rfl, rfl, rfl⟩

theorem bind {act : Act World α} {shown : Act Part α} {next : α → Act World β}
    {next' : α → Act Part β} (first : Shows part act shown)
    (then_ : ∀ a, Shows part (next a) (next' a)) : Shows part (act >>= next) (shown >>= next') := by
  intro w
  obtain ⟨result, world, events⟩ := first w
  obtain ⟨result', world', events'⟩ := then_ (act w).result (act w).world
  simp only [bind_apply]
  rw [← result, ← world, ← events]
  exact ⟨result', world', congrArg _ events'⟩

theorem look {next : World → Act World β} {next' : Part → Act Part β}
    (then_ : ∀ w, Shows part (next w) (next' (part w))) :
    Shows part (Act.look >>= next) (Act.look >>= next') := fun w => then_ w w

theorem ite {c : Prop} [Decidable c] {a b : Act World α} {a' b' : Act Part α}
    (yes : Shows part a a') (no : Shows part b b') :
    Shows part (if c then a else b) (if c then a' else b') := by
  split
  · exact yes
  · exact no

theorem change {f : World → World} {g : Part → Part} (same : ∀ w, part (f w) = g (part w)) :
    Shows part (Act.change f) (Act.change g) := fun w => ⟨rfl, same w, rfl⟩

theorem each {act : α → Act World Unit} {shown : α → Act Part Unit}
    (one : ∀ a, Shows part (act a) (shown a)) (things : List α) :
    Shows part (Act.each act things) (Act.each shown things) := by
  induction things with
  | nil => exact pure ()
  | cons a rest ih => exact bind (one a) fun _ => ih

end Shows

end TriageDesk.Act

namespace TriageDesk.Activity

open Time

/-! ## Records -/

/-- A world with a record of the runs. -/
structure Recorded (World : Type) where
  world : World
  runs : List Begun

/-- Surroundings that keep a record of the runs. -/
def recording {World : Type} (around : Surroundings World) : Surroundings (Recorded World) where
  answer := fun now shutDown call => do
    let plan ← Act.within (·.world) (fun world w => { w with world })
      (around.answer now shutDown call)
    Act.change fun w => { w with runs := w.runs ++ [⟨now, call, plan⟩] }
    return plan
  shutDown := fun w => around.shutDown w.world
  clock := Act.within (·.world) (fun world w => { w with world }) around.clock

/-! ## Commands -/

/-- What can be done with a scheduler in time. -/
inductive Command (World : Type)
  | start (activities : List Activity)
  /-- An activity is stopped, and the end of its loop waited for. -/
  | stopActivity (patience : Nat) (name : String)
  /-- Everything is stopped, and the end of the loops waited for. -/
  | stop (patience : Nat)
  /-- Everything is shut down from outside. -/
  | shutdown
  /-- The world changes, and may shut everything down. -/
  | work (act : Act World Unit)
  | pass (milliseconds : Nat)

namespace Command

variable {World : Type}

/-- The work that a command is. -/
def perform (around : Surroundings World) : Command World → Act (Timeline World) Unit
  | .start activities => Timeline.onScheduler (Scheduler.start activities)
  | .stopActivity patience name => do let _ ← Timeline.stopActivity around patience name
  | .stop patience => do let _ ← Timeline.stop around patience
  | .shutdown => Timeline.onScheduler Scheduler.shutdown
  | .work act => Timeline.inWorld around act
  | .pass milliseconds => Timeline.pass around milliseconds

/-- A command where a record is kept. -/
def recorded : Command World → Command (Recorded World)
  | .start activities => .start activities
  | .stopActivity patience name => .stopActivity patience name
  | .stop patience => .stop patience
  | .shutdown => .shutdown
  | .work act => .work (Act.within (·.world) (fun world w => { w with world }) act)
  | .pass milliseconds => .pass milliseconds

end Command

namespace Timeline

variable {World α : Type}

/-- A timeline after some commands, with the record of its runs. -/
def after (around : Surroundings World) (t : Timeline (Recorded World))
    (commands : List (Command World)) : Timeline (Recorded World) :=
  commands.foldl (fun t c => (c.recorded.perform (recording around) t).world) t

/-- The start of time, with an empty record. -/
def unrecorded (world : World) : Timeline (Recorded World) := start ⟨world, []⟩

/-! ## A record changes nothing -/

/-- A timeline without its record. -/
def forget (t : Timeline (Recorded World)) : Timeline World := { t with world := t.world.world }

@[simp] theorem forget_scheduler (t : Timeline (Recorded World)) :
    (forget t).scheduler = t.scheduler := rfl

@[simp] theorem forget_waits (t : Timeline (Recorded World)) : (forget t).waits = t.waits := rfl

@[simp] theorem forget_now (t : Timeline (Recorded World)) : (forget t).now = t.now := rfl

theorem shows_onScheduler (act : Act (Scheduler Job) α) :
    Act.Shows forget (onScheduler act : Act (Timeline (Recorded World)) α) (onScheduler act) :=
  fun _ => ⟨rfl, rfl, rfl⟩

theorem shows_clock (around : Surroundings World) :
    Act.Shows forget (onWorld (recording around).clock) (onWorld around.clock) :=
  fun _ => ⟨rfl, rfl, rfl⟩

theorem shows_answer (around : Surroundings World) (now : Nat) (down : Bool) (c : Call) :
    Act.Shows forget (onWorld ((recording around).answer now down c))
      (onWorld (around.answer now down c)) := by
  intro t
  refine ⟨rfl, rfl, ?_⟩
  exact List.append_nil _

theorem shows_inWorld {around : Surroundings World} {act : Act (Recorded World) α} {act' : Act World α}
    (shows : Act.Shows forget (onWorld act) (onWorld act')) :
    Act.Shows forget (inWorld (recording around) act) (inWorld around act') := by
  unfold inWorld
  refine shows.bind fun a => .look fun t => ?_
  exact .ite ((shows_onScheduler _).bind fun _ => .pure a) (.pure a)

theorem shows_conclude (around : Surroundings World) (n : Nat) :
    Act.Shows forget (conclude (recording around) n) (conclude around n) := by
  unfold conclude
  refine .look fun t => ?_
  have givesUp : Act.Shows forget
      (do onScheduler (Scheduler.endRun n (← onWorld (recording around).clock) (.error .cancelled)))
      (do onScheduler (Scheduler.endRun n (← onWorld around.clock) (.error .cancelled))) :=
    (shows_clock around).bind fun _ => shows_onScheduler _
  simp only [forget_scheduler, forget_now]
  cases t.scheduler.job? n with
  | none => exact .pure ()
  | some job =>
    cases job with
    | asked => exact .pure ()
    | held => exact .ite givesUp (.pure ())
    | working ends ending =>
      refine .ite (.pure ()) ?_
      cases ending with
      | returns result => exact (shows_clock around).bind fun _ => shows_onScheduler _
      | breaksDown => exact shows_onScheduler _
      | awaitsShutdown => exact .ite givesUp (shows_onScheduler _)

theorem shows_begin (around : Surroundings World) (n : Nat) :
    Act.Shows forget (begin (recording around) n) (begin around n) := by
  unfold begin
  refine .look fun t => ?_
  simp only [forget_scheduler, forget_now]
  cases t.scheduler.loops[n]? with
  | none => exact .pure ()
  | some l =>
    refine .ite (.pure ()) ?_
    refine .bind (shows_clock around) fun moment => ?_
    refine .bind (shows_onScheduler _) fun _ => ?_
    refine .bind (shows_inWorld (shows_answer around _ _ _)) fun plan => ?_
    exact shows_onScheduler _

theorem shows_turn (around : Surroundings World) (n : Nat) :
    Act.Shows forget (turn (recording around) n) (turn around n) := by
  unfold turn
  refine .bind (shows_conclude around n) fun _ => ?_
  refine .bind (shows_onScheduler _) fun _ => ?_
  refine .bind (shows_begin around n) fun _ => ?_
  refine .bind (shows_conclude around n) fun _ => ?_
  refine .bind (shows_onScheduler _) fun _ => ?_
  exact .change fun _ => rfl

theorem shows_turnWaiting (around : Surroundings World)
    (concerned : Scheduler Job → Wait → Bool) :
    Act.Shows forget (turnWaiting (recording around) concerned) (turnWaiting around concerned) := by
  unfold turnWaiting
  refine .look fun t => ?_
  simp only [forget_scheduler, forget_waits]
  generalize t.waits.partition (concerned t.scheduler) = parts
  have turns (w : Wait) : Act.Shows forget (turn (recording around) w.loop) (turn around w.loop) :=
    shows_turn around w.loop
  refine .bind (.change fun _ => rfl) fun _ => ?_
  exact .each turns parts.1

theorem shows_settle (around : Surroundings World) :
    Act.Shows forget (settle (recording around)) (settle around) := by
  unfold settle
  refine .look fun t => ?_
  refine .bind (.each (shows_turn around) _) fun _ => ?_
  exact shows_turnWaiting around isTold

theorem shows_leap (around : Surroundings World) (time : Nat) :
    Act.Shows forget (leap (recording around) time) (leap around time) := by
  unfold leap
  refine .bind (.change fun _ => rfl) fun _ => ?_
  exact .bind (shows_turnWaiting around _) fun _ => shows_settle around

theorem shows_leaps (around : Surroundings World) (done : Scheduler Job → Bool)
    (limit moments : Nat) :
    Act.Shows forget (leaps (recording around) done limit moments)
      (leaps around done limit moments) := by
  induction moments with
  | zero => exact .look fun t => .pure _
  | succ moments ih =>
    unfold leaps
    refine .look fun t => .ite (.pure true) ?_
    have waits : nextTime? (forget t) = nextTime? t := rfl
    rw [waits]
    cases nextTime? t with
    | none => exact .bind (.change fun _ => rfl) fun _ => .pure false
    | some time =>
      refine .ite (.bind (shows_leap around time) fun _ => ih) ?_
      exact .bind (.change fun _ => rfl) fun _ => .pure false

theorem shows_waitFor (around : Surroundings World) (done : Scheduler Job → Bool)
    (patience : Nat) :
    Act.Shows forget (waitFor (recording around) done patience) (waitFor around done patience) := by
  unfold waitFor
  refine .look fun t => .ite (.pure true) ?_
  refine .bind (shows_settle around) fun _ => ?_
  exact .look fun t => shows_leaps around done _ _

/-- **A record changes nothing.** -/
theorem shows_perform (around : Surroundings World) (c : Command World) :
    Act.Shows forget (c.recorded.perform (recording around)) (c.perform around) := by
  cases c with
  | start activities => exact shows_onScheduler _
  | shutdown => exact shows_onScheduler _
  | stopActivity patience name =>
    refine .bind ?_ fun _ => .pure ()
    unfold stopActivity
    refine .bind (shows_onScheduler _) fun taken => ?_
    cases taken with
    | none => exact .pure _
    | some n =>
      refine .bind (shows_waitFor around _ patience) fun past => ?_
      exact .ite (.bind (shows_onScheduler _) fun _ => .pure _) (.pure _)
  | stop patience =>
    refine .bind ?_ fun _ => .pure ()
    unfold stop
    refine .bind (shows_onScheduler _) fun taken => ?_
    refine .bind (shows_waitFor around _ patience) fun past => ?_
    exact .ite (.bind (shows_onScheduler _) fun _ => .pure _) (.pure _)
  | work act => exact shows_inWorld fun _ => ⟨rfl, rfl, rfl⟩
  | pass milliseconds =>
    show Act.Shows forget (pass (recording around) milliseconds) (pass around milliseconds)
    unfold pass
    exact .ite (.pure ()) (.bind (shows_waitFor around _ _) fun _ => .pure ())

theorem forget_after (around : Surroundings World) (t : Timeline (Recorded World))
    (commands : List (Command World)) : forget (after around t commands) =
      commands.foldl (fun t c => (c.perform around t).world) (forget t) := by
  induction commands generalizing t with
  | nil => rfl
  | cons c rest ih =>
    rw [List.foldl_cons, ← (shows_perform around c t).2.1]
    exact ih _

end Timeline

end TriageDesk.Activity
