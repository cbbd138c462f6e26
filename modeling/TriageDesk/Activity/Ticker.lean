/-
TriageDesk.Activity.Ticker — when the next run of an activity is due.

Times are milliseconds. A run that is noticed in time leaves the rhythm as it
is; one that is noticed late starts the rhythm afresh, so that runs which were
missed are never made up for.

Follows the timer of `run_activity`, which fires every period of its activity
and delays after a tick that was missed.
-/

namespace TriageDesk.Activity.Ticker

/-- How many milliseconds late a run may be noticed without moving the later ones. -/
def grace : Nat := 5

/-- When the next run is due after one that was due at a time and noticed at
another. -/
def next (interval due noticed : Nat) : Nat :=
  if noticed ≤ due + grace then due + interval else noticed + interval

/-- A run noticed in time keeps the rhythm. -/
theorem next_of_le {interval due noticed : Nat} (h : noticed ≤ due + grace) :
    next interval due noticed = due + interval := by simp [next, h]

/-- A run noticed late starts the rhythm afresh. -/
theorem next_of_lt {interval due noticed : Nat} (h : due + grace < noticed) :
    next interval due noticed = noticed + interval := by simp [next, Nat.not_le.mpr h]

/-- Between a run that was noticed and the next one lies the interval, less the grace. -/
theorem le_next (interval due noticed : Nat) :
    noticed + interval ≤ next interval due noticed + grace := by
  unfold next
  split <;> omega

end TriageDesk.Activity.Ticker
