/-
TriageDesk.Proofs.Activity.Rhythm — the rhythm of the runs of an activity.

The first run begins with its loop. Every other one begins when it is due or, if
the run before takes longer, as soon as that has ended; and when the next one is
due is reckoned from when this one began (`Ticker.next`). Runs that come about
in this way are `Paced`. What follows for the times at which they begin is
`Paced.laws`: the invariant is that a run is due an interval after the last one
began, less the grace (`begins_le_due`), and an interval after the last one was
due, as long as no run is too long (`Paced.regular`).
-/
import Mathlib.Data.List.Induction
import TriageDesk.Activity.Timeline

namespace TriageDesk.Activity

/-! ## Runs -/

/-- A run that was handed to the engine: when, with what call, and what came of it. -/
structure Begun where
  begins : Nat
  call : Call
  plan : Plan

namespace Begun

/-- When the work of a run is done. -/
def ends (r : Begun) : Nat := r.begins + r.plan.work

/-- A run comes to its end by itself, with a result. -/
def Finishes (r : Begun) : Prop := ∃ result, r.plan.ending = .returns result

end Begun

/-- When the run after some runs is due, the first one being due at the start. -/
def due (interval start : Nat) (runs : List Begun) : Nat :=
  runs.foldl (fun time r => Ticker.next interval time r.begins) start

/-- When the last of some runs has ended; the start if there was none. -/
def free (start : Nat) (runs : List Begun) : Nat := (runs.getLast?.map Begun.ends).getD start

/-- Runs each of which begins when it is due, or as soon as the one before has ended. -/
inductive Paced (interval start : Nat) : List Begun → Prop
  | none : Paced interval start []
  | more {runs : List Begun} {r : Begun} (paced : Paced interval start runs)
      (finished : ∀ q ∈ runs.getLast?, q.Finishes)
      (timely : r.begins = max (due interval start runs) (free start runs)) :
      Paced interval start (runs ++ [r])

variable {interval start now : Nat} {runs pre post : List Begun} {r r' : Begun}

@[simp] theorem due_nil : due interval start [] = start := rfl

@[simp] theorem due_concat (runs : List Begun) (r : Begun) : due interval start (runs ++ [r]) =
    Ticker.next interval (due interval start runs) r.begins := by
  simp [due]

@[simp] theorem free_nil : free start [] = start := rfl

@[simp] theorem free_concat (runs : List Begun) (r : Begun) : free start (runs ++ [r]) = r.ends := by
  simp [free]

theorem paced_concat_iff : Paced interval start (runs ++ [r]) ↔ Paced interval start runs ∧
    (∀ q ∈ runs.getLast?, q.Finishes) ∧
      r.begins = max (due interval start runs) (free start runs) := by
  constructor
  · intro paced
    generalize whole : runs ++ [r] = all at paced
    cases paced with
    | none => simp at whole
    | more paced finished timely =>
      obtain ⟨rfl, rfl⟩ := by simpa using whole
      exact ⟨paced, finished, timely⟩
  · rintro ⟨paced, finished, timely⟩
    exact .more paced finished timely

/-- The runs up to some point keep the pace, too. -/
theorem Paced.of_append (paced : Paced interval start (pre ++ post)) : Paced interval start pre := by
  induction post using List.reverseRecOn with
  | nil => simpa using paced
  | append_singleton post r ih =>
    rw [← List.append_assoc] at paced
    exact ih (paced_concat_iff.mp paced).1

/-- What each run keeps to. -/
theorem Paced.cut (paced : Paced interval start (pre ++ r :: post)) :
    (∀ q ∈ pre.getLast?, q.Finishes) ∧
      r.begins = max (due interval start pre) (free start pre) := by
  rw [List.append_cons] at paced
  exact (paced_concat_iff.mp paced.of_append).2

/-- What two runs keep to, one of which follows the other. -/
theorem Paced.cut_two (paced : Paced interval start (pre ++ r :: r' :: post)) :
    r.Finishes ∧ r'.begins = max (due interval start (pre ++ [r])) r.ends := by
  rw [List.append_cons] at paced
  obtain ⟨finished, timely⟩ := paced.cut
  rw [free_concat] at timely
  exact ⟨finished r (by simp), timely⟩

/-! ## What follows -/

/-- A run is due an interval after the last one began, less the grace. -/
theorem begins_le_due (pre : List Begun) (r : Begun) :
    r.begins + interval ≤ due interval start (pre ++ [r]) + Ticker.grace := by
  rw [due_concat]
  exact Ticker.le_next ..

/-- As long as no run is longer than the interval, the runs are due at its multiples. -/
theorem Paced.regular (paced : Paced interval start runs)
    (short : ∀ q ∈ runs, q.plan.work ≤ interval) :
    due interval start runs = start + runs.length * interval ∧
      free start runs ≤ due interval start runs := by
  induction paced with
  | none => simp
  | @more runs r paced _ timely ih =>
    obtain ⟨multiple, ended⟩ := ih fun q among => short q (List.mem_append_left _ among)
    have work : r.plan.work ≤ interval := short r (by simp)
    rw [Nat.max_eq_left ended] at timely
    have kept : Ticker.next interval (due interval start runs) r.begins =
        due interval start runs + interval := Ticker.next_of_le (by omega)
    rw [due_concat, kept, free_concat, Begun.ends, List.length_append, List.length_singleton,
      Nat.add_mul, multiple]
    omega

/-- How the runs of a loop follow each other, up to a time. -/
structure RunLaws (interval start now : Nat) (runs : List Begun) : Prop where
  /-- The first run begins when its loop does. -/
  first : ∀ r ∈ runs.head?, r.begins = start
  /-- No run begins before the one before it has come to its end. -/
  apart : ∀ pre r r' post, runs = pre ++ r :: r' :: post → r.Finishes ∧ r.ends ≤ r'.begins
  /-- The second run begins no earlier than an interval after the first. -/
  second : ∀ r r' post, runs = r :: r' :: post → r.begins + interval ≤ r'.begins
  /-- Every run begins no earlier than an interval after the one before, less the grace. -/
  spaced : ∀ pre r r' post, runs = pre ++ r :: r' :: post →
    r.begins + interval ≤ r'.begins + Ticker.grace
  /-- As long as no run is longer than the interval, the runs begin at its multiples. -/
  regular : ∀ pre r post, runs = pre ++ r :: post → (∀ q ∈ pre, q.plan.work ≤ interval) →
    r.begins = start + pre.length * interval
  /-- When a run ends late for the next one, that begins at once, and the one after it an interval
  later at the earliest. -/
  late : ∀ pre r r' post, runs = pre ++ r :: r' :: post →
    due interval start (pre ++ [r]) + Ticker.grace < r.ends →
      r'.begins = r.ends ∧ ∀ r'' ∈ post.head?, r'.begins + interval ≤ r''.begins
  /-- A run begins when it is due, or when the one before has ended. -/
  timely : ∀ pre r r' post, runs = pre ++ r :: r' :: post →
    r'.begins = max (due interval start (pre ++ [r])) r.ends
  /-- No run is waited for that should have begun. -/
  prompt : runs = [] → now = start
  complete : ∀ pre r, runs = pre ++ [r] → r.Finishes →
    now ≤ max (due interval start runs) r.ends

/-- **The rhythm of runs** that keep the pace. -/
theorem Paced.laws (paced : Paced interval start runs) (prompt : runs = [] → now = start)
    (complete : ∀ pre r, runs = pre ++ [r] → r.Finishes →
      now ≤ max (due interval start runs) r.ends) : RunLaws interval start now runs where
  first := by
    intro r first
    obtain ⟨post, rfl⟩ := List.head?_eq_some_iff.mp first
    simpa using (@Paced.cut _ _ [] _ _ paced).2
  apart := by
    rintro pre r r' post rfl
    obtain ⟨finished, timely⟩ := paced.cut_two
    exact ⟨finished, timely ▸ Nat.le_max_right _ _⟩
  second := by
    rintro r r' post rfl
    have first : r.begins = start := by simpa using (@Paced.cut _ _ [] _ _ paced).2
    have timely := (@Paced.cut_two _ _ [] _ _ _ paced).2
    rw [due_concat, due_nil, Ticker.next_of_le (by omega)] at timely
    omega
  spaced := by
    rintro pre r r' post rfl
    have timely := paced.cut_two.2
    have grace := @begins_le_due interval start pre r
    omega
  regular := by
    rintro pre r post rfl short
    obtain ⟨multiple, ended⟩ := paced.of_append.regular short
    rw [paced.cut.2, Nat.max_eq_left ended, multiple]
  late := by
    rintro pre r r' post rfl late
    have timely := paced.cut_two.2
    have once : r'.begins = r.ends := by omega
    refine ⟨once, fun r'' next => ?_⟩
    obtain ⟨post, rfl⟩ := List.head?_eq_some_iff.mp next
    rw [List.append_cons] at paced
    have later := paced.cut_two.2
    rw [due_concat, Ticker.next_of_lt (by omega)] at later
    omega
  timely := by
    rintro pre r r' post rfl
    exact paced.cut_two.2
  prompt := prompt
  complete := complete

end TriageDesk.Activity
