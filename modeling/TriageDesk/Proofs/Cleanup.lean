/-
TriageDesk.Proofs.Cleanup — everybody has a turn, and no turn takes too long.

A `Turn` is the time that a task is given: until it ends, or until it has taken as
long as any task may. `Turns` puts them one after the other, so a turn begins when the
one before it is over, whatever has become of that. `perform_turn` is what one task
does and `each_turns` what all of them do, and the laws of a cleanup are read off the
turns: `run_cleanupLaws` is the theorem.
-/
import Mathlib.Algebra.GroupWithZero.Nat
import Mathlib.Data.List.Forall2
import TriageDesk.Cleanup

namespace TriageDesk.Cleanup

/-! ## Turns -/

/-- The turn of a task that begins at some time: when it is over, and what is noted. -/
inductive Turn (limit : Nat) (c : Course) (start : Nat) : Nat → List (Nat × Note) → Prop
  | ended {delay : Nat} (ends : c.delay = some delay) (soon : delay ≤ limit) :
    Turn limit c start (start + delay) [(start, .begins c.name), (start + delay, .ends c.name)]
  | late {delay : Nat} (ends : c.delay = some delay) (late : limit < delay) :
    Turn limit c start (start + limit) [(start, .begins c.name)]
  | stuck (never : c.delay = none) : Turn limit c start (start + limit) [(start, .begins c.name)]

/-- What is reported of a task that may take so many seconds. -/
inductive Reported (timeout : Nat) (c : Course) : Event → Prop
  | done {delay : Nat} (ends : c.delay = some delay) (soon : delay ≤ timeout * 1000)
    (well : c.result = .ok ()) : Reported timeout c (.cleanupDone c.name)
  | failed {delay : Nat} {reason : String} (ends : c.delay = some delay)
    (soon : delay ≤ timeout * 1000) (badly : c.result = .error reason) :
    Reported timeout c (.cleanupFailed c.name reason)
  | late {delay : Nat} (ends : c.delay = some delay) (late : timeout * 1000 < delay) :
    Reported timeout c (.cleanupTimedOut c.name timeout)
  | stuck (never : c.delay = none) : Reported timeout c (.cleanupTimedOut c.name timeout)

/-- The turns of some tasks, one after the other: when the first begins and the last is over,
what is noted, and what is reported. -/
inductive Turns (timeout : Nat) :
    Nat → List Course → Nat → List (Nat × Note) → List Event → Prop
  | nil (now : Nat) : Turns timeout now [] now [] []
  | cons {c : Course} {rest : List Course} {start stop last : Nat} {notes more : List (Nat × Note)}
    {event : Event} {events : List Event} (turn : Turn (timeout * 1000) c start stop notes)
    (reported : Reported timeout c event) (others : Turns timeout stop rest last more events) :
    Turns timeout start (c :: rest) last (notes ++ more) (event :: events)

/-- The task that begins, if a note says that one does. -/
def Note.begun? : Nat × Note → Option String
  | (_, .begins task) => some task
  | (_, .ends _) => none

/-- What comes of a cleanup. -/
structure CleanupLaws (timeout : Nat) (courses : List Course) (first : Diary)
    (done : Act.Done Diary Unit) : Prop where
  /-- Every task has its turn, one after the other. -/
  turns : ∃ notes reports, Turns timeout first.now courses done.world.now notes reports ∧
    done.world.notes = first.notes ++ notes ∧
    done.events = .cleanupRunning courses.length :: reports
  /-- Every task begins once, in the order in which they were entered. -/
  begun : ∃ notes, done.world.notes = first.notes ++ notes ∧
    notes.filterMap Note.begun? = courses.map Course.name
  /-- Each takes its own time, or as long as any may. -/
  duration : done.world.now = first.now +
    (courses.map fun c => (c.delay.map fun delay => min delay (timeout * 1000)).getD
      (timeout * 1000)).sum
  bounded : done.world.now ≤ first.now + courses.length * (timeout * 1000)
  /-- There is one report of each task, which says what became of it. -/
  reported : ∃ reports, done.events = .cleanupRunning courses.length :: reports ∧
    List.Forall₂ (Reported timeout) courses reports

/-! ## What is done -/

section

variable {timeout : Nat}

/-- A task has its turn, whatever it does. -/
theorem perform_turn (timeout : Nat) (c : Course) (d : Diary) :
    ∃ stop notes event, perform timeout c.task d = ⟨(), ⟨stop, d.notes ++ notes⟩, [event]⟩ ∧
      Turn (timeout * 1000) c d.now stop notes ∧ Reported timeout c event := by
  cases ends : c.delay with
  | none =>
    refine ⟨_, _, _, ?_, .stuck ends, .stuck ends⟩
    simp [perform, Course.task, Course.spent, Course.resultWithin, jot, pass, outcome, ends]
  | some delay =>
    rcases Nat.lt_or_ge (timeout * 1000) delay with late | soon
    · refine ⟨_, _, _, ?_, .late ends late, .late ends late⟩
      simp [perform, Course.task, Course.spent, Course.resultWithin, jot, pass, outcome, ends,
        Nat.not_le.mpr late, Nat.min_eq_right (Nat.le_of_lt late)]
    · cases result : c.result with
      | ok u =>
        refine ⟨_, _, _, ?_, .ended ends soon, .done ends soon result⟩
        simp [perform, Course.task, Course.spent, Course.resultWithin, jot, pass, outcome, ends,
          soon, result]
      | error reason =>
        refine ⟨_, _, _, ?_, .ended ends soon, .failed ends soon result⟩
        simp [perform, Course.task, Course.spent, Course.resultWithin, jot, pass, outcome, ends,
          soon, result]

/-- All tasks have their turns, one after the other. -/
theorem each_turns (timeout : Nat) (courses : List Course) (d : Diary) :
    ∃ last notes events, Act.each (perform timeout) (courses.map Course.task) d =
        ⟨(), ⟨last, d.notes ++ notes⟩, events⟩ ∧
      Turns timeout d.now courses last notes events := by
  induction courses generalizing d with
  | nil =>
    refine ⟨d.now, [], [], ?_, .nil d.now⟩
    rw [List.append_nil]
    rfl
  | cons c rest ih =>
    obtain ⟨stop, notes, event, performed, turn, reported⟩ := perform_turn timeout c d
    obtain ⟨last, more, events, others, turns⟩ := ih ⟨stop, d.notes ++ notes⟩
    refine ⟨last, notes ++ more, event :: events, ?_, .cons turn reported turns⟩
    rw [List.map_cons, Act.each, Act.bind]
    simp only [performed, others, List.append_assoc, List.singleton_append]

/-! ## What the turns say -/

variable {courses : List Course} {start last : Nat} {notes : List (Nat × Note)}
  {events : List Event}

theorem Turn.begun {limit stop : Nat} {c : Course} (turn : Turn limit c start stop notes) :
    notes.filterMap Note.begun? = [c.name] := by
  cases turn <;> rfl

theorem Turn.stop_eq {limit stop : Nat} {c : Course} (turn : Turn limit c start stop notes) :
    stop = start + (c.delay.map fun delay => min delay limit).getD limit := by
  cases turn with
  | ended ends soon => rw [ends, Option.map_some, Option.getD_some, Nat.min_eq_left soon]
  | late ends late =>
    rw [ends, Option.map_some, Option.getD_some, Nat.min_eq_right (Nat.le_of_lt late)]
  | stuck never => rw [never, Option.map_none, Option.getD_none]

theorem Turn.stop_le {limit stop : Nat} {c : Course} (turn : Turn limit c start stop notes) :
    stop ≤ start + limit := by
  cases turn with
  | ended _ soon => exact Nat.add_le_add_left soon start
  | late | stuck => exact Nat.le_refl _

theorem Turns.begun (turns : Turns timeout start courses last notes events) :
    notes.filterMap Note.begun? = courses.map Course.name := by
  induction turns with
  | nil => rfl
  | cons turn _ _ ih => rw [List.filterMap_append, turn.begun, ih]; rfl

theorem Turns.last_eq (turns : Turns timeout start courses last notes events) : last = start +
    (courses.map fun c => (c.delay.map fun delay => min delay (timeout * 1000)).getD
      (timeout * 1000)).sum := by
  induction turns with
  | nil => rfl
  | cons turn _ _ ih => rw [ih, turn.stop_eq, List.map_cons, List.sum_cons, Nat.add_assoc]

theorem Turns.last_le (turns : Turns timeout start courses last notes events) :
    last ≤ start + courses.length * (timeout * 1000) := by
  induction turns with
  | nil now => exact Nat.le_add_right now _
  | cons turn _ _ ih =>
    have bound := turn.stop_le
    rw [List.length_cons, Nat.succ_mul]
    omega

theorem Turns.reported (turns : Turns timeout start courses last notes events) :
    List.Forall₂ (Reported timeout) courses events := by
  induction turns with
  | nil => exact .nil
  | cons _ reported _ ih => exact .cons reported ih

/-- **A cleanup skips nobody and takes no longer than it may.** -/
theorem run_cleanupLaws (timeout : Nat) (courses : List Course) (first : Diary) :
    CleanupLaws timeout courses first (run timeout (courses.map Course.task) first) := by
  obtain ⟨last, notes, reports, performed, turns⟩ := each_turns timeout courses first
  have done : run timeout (courses.map Course.task) first = ⟨(), ⟨last, first.notes ++ notes⟩,
      .cleanupRunning courses.length :: reports⟩ := by
    simp [run, performed]
  rw [done]
  exact {
    turns := ⟨notes, reports, turns, rfl, rfl⟩
    begun := ⟨notes, rfl, turns.begun⟩
    duration := turns.last_eq
    bounded := turns.last_le
    reported := ⟨reports, rfl, turns.reported⟩ }

end

end TriageDesk.Cleanup
