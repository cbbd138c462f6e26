/-
TriageDesk.Proofs.Activity.Punctuality — a loop that nobody tells to end keeps
the pace.

What the phase of a loop says of its runs is `Beats`: when the next one is due
is reckoned from those that began, and the last one is not over before its time.
A loop is `Going` if this holds, the runs so far are `Paced`, and no other loop
runs its activity; and it is `InTime` if it waits for what its phase says, too.

`Going.turned` is what its own turn keeps, `Going.other` the turn of another
loop, `Going.called` what those do who call the scheduler, and `Going.later` the
time that passes. `kept_inTime` puts them together.
-/
import Mathlib.Data.List.Nodup
import TriageDesk.Proofs.Activity.Keeping
import TriageDesk.Proofs.Activity.Turns

namespace TriageDesk.Activity

open Time

/-! ## How far a loop has come in its runs -/

/-- What the phase of a loop that goes on says of its runs. -/
def Beats (interval start now : Nat) (runs : List Begun) : Loop.Phase Job → Prop
  | .spawned => runs = [] ∧ now = start
  | .running time (.working ends ending) => time = due interval start runs ∧ now ≤ ends ∧
      ∃ r ∈ runs.getLast?, r.ends = ends ∧ r.plan.ending = ending
  | .waiting time => time = due interval start runs ∧
      ∃ r ∈ runs.getLast?, r.Finishes ∧ r.ends ≤ now ∧ now ≤ max time r.ends
  | .running _ .held | .aborted => ∃ r ∈ runs.getLast?, ¬ r.Finishes
  | .running _ (.asked _) | .ended => False

variable {interval start now time ends : Nat} {runs : List Begun} {l : Loop Job}

theorem free_of_getLast? {r : Begun} (last : runs.getLast? = some r) : free start runs = r.ends := by
  simp [free, last]

/-- A loop that waits for the next run has the last one behind it. -/
theorem Beats.finished {ending : Ending} {result : Except Agent.Failure String}
    (beats : Beats interval start now runs (.running time (.working ends ending)))
    (returns : ending = .returns result) (past : ends ≤ now) :
    Beats interval start now runs (.waiting time) := by
  obtain ⟨due, early, r, last, rfl, rfl⟩ := beats
  exact ⟨due, r, last, ⟨result, returns⟩, past, Nat.le_trans early (Nat.le_max_right _ _)⟩

/-- A run that does not come to its end by itself is the last one. -/
theorem Beats.unfinished {ending : Ending}
    (beats : Beats interval start now runs (.running time (.working ends ending)))
    (endless : ∀ result, ending ≠ .returns result) : ∃ r ∈ runs.getLast?, ¬ r.Finishes := by
  obtain ⟨-, -, r, last, -, rfl⟩ := beats
  exact ⟨r, last, fun ⟨result, returns⟩ => endless result returns⟩

/-- The first run is not waited for. -/
theorem Beats.prompt {phase : Loop.Phase Job} (beats : Beats interval start now runs phase)
    (none : runs = []) : now = start := by
  subst none
  cases phase with
  | spawned => exact beats.2
  | waiting | ended | aborted => simp [Beats] at beats
  | running time job => cases job <;> simp [Beats] at beats

/-- The run after one that has finished is not waited for once it is due. -/
theorem Beats.complete {phase : Loop.Phase Job} (beats : Beats interval start now runs phase)
    {r : Begun} (last : runs.getLast? = some r) (finishes : r.Finishes) :
    now ≤ max (due interval start runs) r.ends := by
  have endless : ¬ ∃ q ∈ runs.getLast?, ¬ q.Finishes := by
    rintro ⟨q, last', unfinished⟩
    rw [last] at last'
    cases last'
    exact unfinished finishes
  cases phase with
  | spawned =>
    obtain ⟨rfl, -⟩ := beats
    cases last
  | waiting time =>
    obtain ⟨rfl, q, last', -, -, prompt⟩ := beats
    rw [last] at last'
    cases last'
    exact prompt
  | ended => exact beats.elim
  | aborted => exact absurd beats endless
  | running time job =>
    cases job with
    | asked call => exact beats.elim
    | held => exact absurd beats endless
    | working ends ending =>
      obtain ⟨-, early, q, last', rfl, -⟩ := beats
      rw [last] at last'
      cases last'
      exact Nat.le_trans early (Nat.le_max_right _ _)

/-- When a run is due, and when the one after it. -/
theorem Loop.dueAfter?_eq_some (isDue : l.dueAfter? now = some time) :
    (l.phase = .spawned ∧ time = now + l.interval) ∨
      ∃ due, l.phase = .waiting due ∧ due ≤ now ∧ time = Ticker.next l.interval due now := by
  unfold dueAfter? at isDue
  split at isDue
  · rename_i spawned
    exact Or.inl ⟨spawned, (Option.some.inj isDue).symm⟩
  · rename_i due waiting
    split at isDue
    · rename_i late
      exact Or.inr ⟨due, waiting, late, (Option.some.inj isDue).symm⟩
    · cases isDue
  · cases isDue

/-- No interval is as short as the grace. -/
theorem Loop.grace_lt_interval (l : Loop Job) : Ticker.grace < l.interval := by
  have := Interval.parse_pos l.activity.schedule
  simp only [Ticker.grace, interval, Activity.interval]
  omega

/-- **A run that begins when one is due keeps the pace.** -/
theorem Beats.begins (beats : Beats l.interval start now runs l.phase)
    (paced : Paced l.interval start runs) (isDue : l.dueAfter? now = some time) {r : Begun}
    (begins : r.begins = now) : Paced l.interval start (runs ++ [r]) ∧
      Beats l.interval start now (runs ++ [r]) (.running time (.working r.ends r.plan.ending)) ∧
        now < time := by
  have long := l.grace_lt_interval
  have working : now ≤ r.ends := by
    rw [Begun.ends, begins]
    exact Nat.le_add_right _ _
  rcases Loop.dueAfter?_eq_some isDue with ⟨phase, rfl⟩ | ⟨due, phase, late, rfl⟩
  · rw [phase] at beats
    obtain ⟨rfl, rfl⟩ := beats
    refine ⟨.more .none (by simp) (by simp [begins]), ⟨?_, working, r, by simp, rfl, rfl⟩, by omega⟩
    rw [due_concat, due_nil, begins, Ticker.next_of_le (Nat.le_add_right _ _)]
  · rw [phase] at beats
    obtain ⟨rfl, q, last, finishes, past, prompt⟩ := beats
    have grace := Ticker.le_next l.interval (Activity.due l.interval start runs) now
    refine ⟨.more paced ?_ ?_, ⟨?_, working, r, by simp, rfl, rfl⟩, by omega⟩
    · intro q' among
      rw [last] at among
      cases among
      exact finishes
    · rw [free_of_getLast? last, begins]
      omega
    · rw [due_concat, begins]

namespace Timeline

variable {World : Type} {around : Surroundings World} {n m since : Nat} {phase : Loop.Phase Job}
  {t t' : Timeline (Recorded World)}

/-! ## A loop that goes on -/

/-- The runs of an activity that have begun since the record had some length. -/
def runsOf (name : String) (since : Nat) (t : Timeline (Recorded World)) : List Begun :=
  (t.world.runs.drop since).filter (·.call.session = name)

/-- No loop but one begins any run of the activities of a name. -/
def Sole (n : Nat) (name : String) (s : Scheduler Job) : Prop :=
  ∀ (m : Nat) k, s.loops[m]? = some k → k.activity.name = name → m ≠ n → k.Spent

/-- A loop that began at a time keeps the pace, and no other one runs its activity. -/
structure Going (n start since : Nat) (l : Loop Job) (t : Timeline (Recorded World)) : Prop where
  found : t.scheduler.loops[n]? = some l
  handle : t.scheduler.handles.get? l.activity.name = some n
  sole : Sole n l.activity.name t.scheduler
  logged : since ≤ t.world.runs.length
  paced : Paced l.interval start (runsOf l.activity.name since t)
  beats : Beats l.interval start t.now (runsOf l.activity.name since t) l.phase

theorem runsOf_append {name : String} {more : List Begun} (logged : since ≤ t.world.runs.length)
    (runs : t'.world.runs = t.world.runs ++ more) :
    runsOf name since t' = runsOf name since t ++ more.filter (·.call.session = name) := by
  rw [runsOf, runs, List.drop_append_of_le_length logged, List.filter_append, runsOf]

theorem runsOf_congr {name : String} (runs : t'.world.runs = t.world.runs) :
    runsOf name since t' = runsOf name since t := by
  rw [runsOf, runs, runsOf]

theorem Touches.sole {name : String} (touches : Touches m t t') (sole : Sole n name t.scheduler) :
    Sole n name t'.scheduler := by
  intro k l' found' session other
  obtain ⟨l, found, activity, -⟩ := touches.origin found'
  refine touches.spent found' fun l₁ found₁ => sole k l₁ found₁ ?_ other
  rw [found] at found₁
  cases found₁
  rw [← activity, session]

/-- A part of a turn, of the loop itself or of another one, that keeps the pace. -/
theorem Going.step (going : Going n start since l t) (touches : Touches m t t')
    (found : t'.scheduler.loops[n]? = some { l with phase })
    (paced : Paced l.interval start (runsOf l.activity.name since t'))
    (beats : Beats l.interval start t.now (runsOf l.activity.name since t') phase) :
    Going n start since { l with phase } t' where
  found := found
  handle := by
    rw [touches.handles]
    exact going.handle
  sole := touches.sole going.sole
  logged := by
    obtain ⟨more, runs, -⟩ := touches.runs
    rw [runs, List.length_append]
    exact Nat.le_trans going.logged (Nat.le_add_right _ _)
  paced := paced
  beats := by
    rw [touches.now]
    exact beats

/-- The loop makes a move with which no run begins. -/
theorem Going.moved {c : Scheduler.Move Job} (going : Going n start since l t)
    (made : c.maker? = some n) (touches : Touches n t t') (runs : t'.world.runs = t.world.runs)
    (moved : t'.scheduler = c.next t.scheduler) (after : c.phaseAfter t.scheduler l = phase)
    (beats : Beats l.interval start t.now (runsOf l.activity.name since t) phase) :
    Going n start since { l with phase } t' := by
  rw [← runsOf_congr runs] at beats
  refine going.step touches ?_ (runsOf_congr runs ▸ going.paced) beats
  rw [moved, Scheduler.found_of_maker made, going.found, Option.map_some, after]

/-- Another loop has its turn. -/
theorem Going.other (going : Going n start since l t) (touches : Touches m t t') (other : m ≠ n)
    (still : (∀ k, t.scheduler.loops[m]? = some k → k.Spent) → t'.world.runs = t.world.runs) :
    Going n start since l t' := by
  have same : runsOf l.activity.name since t' = runsOf l.activity.name since t := by
    by_cases namesake : ∃ k, t.scheduler.loops[m]? = some k ∧ k.activity.name = l.activity.name
    · obtain ⟨k, found, name⟩ := namesake
      refine runsOf_congr (still fun k' found' => ?_)
      exact going.sole m k' found' (by rw [found] at found'; cases found'; exact name) other
    · obtain ⟨more, runs, own⟩ := touches.runs
      have foreign : more.filter (·.call.session = l.activity.name) = [] := by
        rw [List.filter_eq_nil_iff]
        intro r among session
        obtain ⟨k, found, name⟩ := own r among
        exact namesake ⟨k, found, by rw [← name, of_decide_eq_true session]⟩
      rw [runsOf_append going.logged runs, foreign, List.append_nil]
  refine going.step touches ?_ (same ▸ going.paced) (same ▸ going.beats)
  rw [touches.loop_ne (Ne.symm other)]
  exact going.found

/-! ## The turn of the loop -/

/-- A run that is in flight is not done yet. -/
def Closed (now : Nat) : Loop.Phase Job → Prop
  | .running _ (.working ends _) => now < ends
  | _ => True

/-- Nothing will be due at this time any more once what is in flight is done. -/
def Ahead (now : Nat) : Loop.Phase Job → Prop
  | .spawned => False
  | .waiting time => now < time
  | .running time (.working ends _) => now < time ∨ now < ends
  | _ => True

theorem job?_of_found (found : t.scheduler.loops[n]? = some l) : t.scheduler.job? n =
    match l.phase with
    | .running _ job => some job
    | _ => none := by
  obtain ⟨a, stopped, phase⟩ := l
  cases phase <;> simp [Scheduler.job?, found]

theorem not_shutDown (found : t.scheduler.loops[n]? = some l)
    (untold : ¬ Scheduler.Told n t.scheduler) : t.scheduler.shutDown = false := by
  by_contra down
  exact untold ⟨l, found, by simp [Scheduler.isTold, eq_true_of_ne_false down]⟩

theorem Going.concluded (around : Surroundings World) (going : Going n start since l t)
    (untold : ¬ Scheduler.Told n t.scheduler) :
    ∃ phase, Going n start since { l with phase } (conclude (recording around) n t).world ∧
      Closed t.now phase ∧ (Ahead t.now l.phase → Ahead t.now phase) := by
  obtain ⟨moment, w, same, done⟩ := conclude_eq around n t
  have up := not_shutDown going.found untold
  have touches := (touches_conclude around n t).1
  have runs := (touches_conclude around n t).2
  have job := job?_of_found going.found
  have beats := going.beats
  have stays : (conclude (recording around) n t).world = t → Closed t.now l.phase →
      ∃ phase, Going n start since { l with phase } (conclude (recording around) n t).world ∧
        Closed t.now phase ∧ (Ahead t.now l.phase → Ahead t.now phase) := by
    intro nothing closed
    rw [nothing]
    exact ⟨l.phase, going, closed, id⟩
  rw [job] at done
  cases phase : l.phase with
  | spawned | waiting | ended | aborted =>
    rw [phase] at done
    rw [← phase]
    exact stays done (by rw [phase]; trivial)
  | running time inFlight =>
    rw [phase] at done beats
    cases inFlight with
    | asked => exact beats.elim
    | held =>
      simp only [up, Bool.false_eq_true, if_false] at done
      rw [← phase]
      exact stays done (by rw [phase]; trivial)
    | working ends ending =>
      by_cases early : t.now < ends
      · simp only [early, if_true] at done
        rw [← phase]
        exact stays done (by rw [phase]; exact early)
      · simp only [early, if_false, up, Bool.false_eq_true] at done
        cases ending with
        | returns result =>
          refine ⟨.waiting time, going.moved rfl touches runs (congrArg _ done) ?_ ?_, trivial,
            fun ahead => ?_⟩
          · simp [Scheduler.Move.phaseAfter, phase]
          · exact beats.finished rfl (Nat.le_of_not_lt early)
          · exact ahead.resolve_right early
        | breaksDown =>
          refine ⟨.aborted, going.moved rfl touches runs (congrArg _ done) ?_ ?_, trivial,
            fun _ => trivial⟩
          · simp [Scheduler.Move.phaseAfter, phase]
          · exact beats.unfinished (by simp)
        | awaitsShutdown =>
          refine ⟨.running time .held, going.moved rfl touches runs (congrArg _ done) ?_ ?_,
            trivial, fun _ => trivial⟩
          · simp [Scheduler.Move.phaseAfter, phase]
          · exact beats.unfinished (by simp)

theorem Going.closed (around : Surroundings World) (going : Going n start since l t)
    (untold : ¬ Scheduler.Told n (close around n t).scheduler) :
    ∃ phase, Going n start since { l with phase } (close around n t) ∧
      Closed t.now phase ∧ (Ahead t.now l.phase → Ahead t.now phase) := by
  have concludes := (touches_conclude around n t).1
  have leaves := touches_move (m := .leave n) rfl (conclude (recording around) n t).world
  have still := mt leaves.told untold
  obtain ⟨phase, going', closed, ahead⟩ := going.concluded around (mt concludes.told still)
  have here : ¬ (conclude (recording around) n t).world.scheduler.isTold { l with phase } = true :=
    fun told => still ⟨_, going'.found, told⟩
  refine ⟨phase, going'.moved rfl leaves rfl rfl ?_ going'.beats, closed, ahead⟩
  cases phase with
  | waiting time => simp [Scheduler.Move.phaseAfter, here]
  | spawned | running | ended | aborted => rfl

theorem Going.begun (around : Surroundings World) (going : Going n start since l t)
    (closed : Closed t.now l.phase)
    (untold : ¬ Scheduler.Told n (begin (recording around) n t).world.scheduler) :
    ∃ phase, Going n start since { l with phase } (begin (recording around) n t).world ∧
      Ahead t.now phase := by
  have touches := touches_begin around n t
  cases due : l.dueAfter? t.now with
  | none =>
    rw [begin_of_undue (recording around) fun l' found => by rw [going.found] at found; cases found; exact due]
    refine ⟨l.phase, going, ?_⟩
    unfold Loop.dueAfter? at due
    cases phase : l.phase with
    | spawned => simp [phase] at due
    | waiting time => simpa [phase, Ahead] using due
    | ended | aborted => trivial
    | running time inFlight =>
      cases inFlight with
      | asked | held => trivial
      | working ends ending =>
        rw [phase] at closed
        exact Or.inr closed
  | some time =>
    obtain ⟨moment, plan, w, s, runs, asked, done⟩ := begin_of_due around going.found due
    rcases asked with rfl | rfl
    · have own : runsOf l.activity.name since (begin (recording around) n t).world =
          runsOf l.activity.name since t ++ [⟨t.now, call l.activity, plan⟩] := by
        rw [runsOf_append going.logged (by rw [done]; exact runs)]
        simp [call]
      obtain ⟨paced, beats, later⟩ := going.beats.begins going.paced due
        (r := ⟨t.now, call l.activity, plan⟩) rfl
      rw [← own] at paced beats
      refine ⟨_, going.step touches ?_ paced beats, Or.inl later⟩
      rw [done, Scheduler.found_of_maker rfl, Scheduler.found_of_maker rfl, going.found]
      simp [Scheduler.Move.phaseAfter, due, Begun.ends]
    · -- the engine has shut everything down
      obtain ⟨l', found'⟩ := touches.found going.found
      refine absurd ⟨l', found', ?_⟩ untold
      rw [done, Scheduler.isTold, Bool.or_eq_true, (Scheduler.next_of_maker rfl _).2.1]
      exact Or.inr rfl

/-- **The turn of a loop that goes on** keeps the pace, and afterwards nothing is due. -/
theorem Going.turned (around : Surroundings World) (going : Going n start since l t)
    (untold : ¬ Scheduler.Told n (turned around n t).scheduler) :
    ∃ phase, Going n start since { l with phase } (turned around n t) ∧ phase ≠ .spawned ∧
      ∀ time, phase = .waiting time → t.now ≤ time := by
  have first := touches_close around n t
  have begins := touches_begin around n (close around n t)
  have last := touches_close around n (begin (recording around) n (close around n t)).world
  obtain ⟨_, going₁, closed₁, -⟩ := going.closed around
    (mt begins.told (mt last.told untold))
  obtain ⟨_, going₂, ahead₂⟩ := going₁.begun around (by rw [first.now]; exact closed₁)
    (mt last.told untold)
  obtain ⟨phase, going₃, -, ahead₃⟩ := going₂.closed around untold
  rw [begins.now, first.now] at ahead₃
  rw [first.now] at ahead₂
  have ahead := ahead₃ ahead₂
  refine ⟨phase, going₃, ?_, ?_⟩
  · rintro rfl
    exact ahead
  · rintro time rfl
    exact Nat.le_of_lt ahead

/-! ## What the loop waits for -/

/-- A loop waits as its phase says, unless it is one of those that are about to have their
turns. -/
structure Awaited (n : Nat) (coming : List Nat) (l : Loop Job) (t : Timeline (Recorded World)) :
    Prop where
  once : coming.count n ≤ 1
  waits : t.waits.filter (·.loop = n) = if n ∈ coming then [] else (wait? t.scheduler n).toList
  ahead : n ∉ coming → l.phase ≠ .spawned ∧ ∀ time, l.phase = .waiting time → t.now ≤ time

/-- A loop has been told to end, or goes on and waits for its next moment, while some loops are
about to have their turns. -/
def InTime (n start since : Nat) (a : Activity) (coming : List Nat)
    (t : Timeline (Recorded World)) : Prop :=
  Scheduler.Told n t.scheduler ∨
    ∃ l, l.activity = a ∧ Going n start since l t ∧ Awaited n coming l t

variable {a : Activity} {coming : List Nat} {s : Scheduler Job}

theorem filter_wait? (s : Scheduler Job) (m n : Nat) :
    (wait? s m).toList.filter (·.loop = n) = if m = n then (wait? s m).toList else [] := by
  unfold wait?
  split <;> split_ifs with same <;> simp [same]

theorem wait?_of_found (found : s.loops[n]? = some l) : wait? s n =
    match l.phase with
    | .waiting time => some ⟨n, some time⟩
    | .running _ (.working ends _) => some ⟨n, some ends⟩
    | .running _ .held => some ⟨n, none⟩
    | _ => none := by
  obtain ⟨a, stopped, phase⟩ := l
  rw [wait?, found]
  cases phase with
  | spawned | waiting | ended | aborted => rfl
  | running time job => cases job <;> rfl

theorem mem_unbegun (found : s.loops[n]? = some l) : n ∈ unbegun s ↔ l.phase = .spawned := by
  simp only [unbegun, List.mem_filterMap, List.mem_zipIdx_iff_getElem?, Prod.exists]
  constructor
  · rintro ⟨l', n', found', chosen⟩
    split at chosen
    · rename_i spawned
      cases chosen
      rw [found] at found'
      cases found'
      exact spawned
    · cases chosen
  · intro spawned
    exact ⟨l, n, found, by simp [spawned]⟩

theorem nodup_unbegun (s : Scheduler Job) : (unbegun s).Nodup := by
  have ascending : s.loops.zipIdx.Pairwise (fun k l => k.2 < l.2) := by
    rw [← List.pairwise_map, List.zipIdx_map_snd]
    exact List.pairwise_lt_range'
  rw [unbegun, List.Nodup, List.pairwise_filterMap]
  refine ascending.imp fun below b chosen b' chosen' => ?_
  simp only [Option.ite_none_right_eq_some, Option.some.injEq] at chosen chosen'
  rw [← chosen.2, ← chosen'.2]
  exact Nat.ne_of_lt below

theorem Going.waits (going : Going n start since l t) (waits : List Wait) :
    Going n start since l { t with waits } :=
  ⟨going.found, going.handle, going.sole, going.logged, going.paced, going.beats⟩

/-- One of those that are about to have their turns has its turn. -/
theorem inTime_turn (around : Surroundings World) (here : InTime n start since a (m :: coming) t) :
    InTime n start since a coming (turn (recording around) m t).world := by
  have touches := touches_turned around m t
  rw [turn_eq]
  by_cases told : Scheduler.Told n (turned around m t).scheduler
  · exact Or.inl told
  obtain told' | ⟨l, activity, going, once, waits, ahead⟩ := here
  · exact absurd (touches.told told') told
  rw [← touches.waits] at waits
  by_cases own : m = n
  · subst own
    obtain ⟨phase, going', begun, later⟩ := going.turned around told
    have past : m ∉ coming := by
      rw [List.count_cons_self] at once
      exact List.count_eq_zero.mp (by omega)
    rw [if_pos List.mem_cons_self] at waits
    refine Or.inr ⟨{ l with phase }, activity, going'.waits _, ?_, ?_, fun _ => ⟨begun, ?_⟩⟩
    · simp [List.count_eq_zero.mpr past]
    · rw [List.filter_append, waits, filter_wait?, if_pos rfl, if_neg past, List.nil_append]
    · rw [touches.now]
      exact later
  · have still := fun spent => runs_turned_of_spent around (n := m) (t := t) spent
    have same : wait? (turned around m t).scheduler n = wait? t.scheduler n := by
      rw [wait?, touches.loop_ne (Ne.symm own), wait?]
    refine Or.inr ⟨l, activity, (going.other touches own still).waits _, ?_, ?_, ?_⟩
    · rwa [List.count_cons_of_ne own] at once
    · rw [List.filter_append, waits, filter_wait?, if_neg own, List.append_nil, same]
      simp [Ne.symm own]
    · intro absent
      rw [touches.now]
      exact ahead (by simp [Ne.symm own, absent])

/-- By induction on those that are about to have their turns. -/
theorem inTime_turns (around : Surroundings World) (here : InTime n start since a coming t) :
    InTime n start since a []
      (coming.foldl (fun t m => (turn (recording around) m t).world) t) := by
  induction coming generalizing t with
  | nil => exact here
  | cons m coming ih => exact ih (inTime_turn around here)

theorem count_called (waits : List Wait) (c : Wait → Bool) (n : Nat) :
    ((waits.filter c).map Wait.loop).count n = ((waits.filter (·.loop = n)).filter c).length := by
  rw [List.count, List.countP_map, List.countP_eq_length_filter, List.filter_filter,
    List.filter_filter]
  refine congrArg _ (List.filter_congr fun w _ => ?_)
  simp [Bool.and_comm, beq_eq_decide]

/-- Where a loop waits once at most, its wait is called or left. -/
theorem called_or_left {waits : List Wait} {own : Option Wait}
    (once : waits.filter (·.loop = n) = own.toList) (c : Wait → Bool) :
    ((waits.filter c).map Wait.loop).count n ≤ 1 ∧
      (waits.filter fun w => !c w).filter (·.loop = n) =
        if n ∈ (waits.filter c).map Wait.loop then [] else own.toList := by
  have called := count_called waits c n
  have left : (waits.filter fun w => !c w).filter (·.loop = n) =
      own.toList.filter fun w => !c w := by
    rw [← once, List.filter_filter, List.filter_filter]
    simp [Bool.and_comm]
  rw [once] at called
  rw [left]
  cases own with
  | none => simp [called]
  | some w =>
    cases chosen : c w
    · have spared : n ∉ (waits.filter c).map Wait.loop := by
        rw [← List.count_eq_zero, called]
        simp [chosen]
      rw [if_neg spared]
      simp [called, chosen]
    · have among : n ∈ (waits.filter c).map Wait.loop := by
        rw [← List.count_pos_iff, called]
        simp [chosen]
      rw [if_pos among]
      simp [called, chosen]

theorem inTime_turnWaiting (around : Surroundings World) (concerned : Scheduler Job → Wait → Bool)
    (here : InTime n start since a [] t) :
    InTime n start since a [] (turnWaiting (recording around) concerned t).world := by
  rw [turnWaiting_eq]
  refine inTime_turns around (here.imp id ?_)
  rintro ⟨l, activity, going, -, waits, ahead⟩
  rw [if_neg List.not_mem_nil] at waits
  obtain ⟨once, left⟩ := called_or_left waits (concerned t.scheduler)
  exact ⟨l, activity, going.waits _, once, left, fun _ => ahead List.not_mem_nil⟩

theorem inTime_settle (around : Surroundings World)
    (here : InTime n start since a (unbegun t.scheduler) t) :
    InTime n start since a [] (settle (recording around) t).world := by
  rw [settle_eq]
  exact inTime_turnWaiting around isTold (inTime_turns around here)

/-! ## What else may happen -/

/-- One who calls the scheduler does something, and does not tell the loop to end. -/
theorem Going.called {c : Scheduler.Move Job} (going : Going n start since l t)
    (called : c.maker? = none) (untold : ¬ Scheduler.Told n (c.next t.scheduler)) :
    ∃ stopped, Going n start since { l with stopped }
      { t with scheduler := c.next t.scheduler } := by
  obtain ⟨stopped, found, -⟩ := c.next_called called going.found
  have handle : (c.next t.scheduler).handles.get? l.activity.name = some n :=
    (c.next_handle t.scheduler going.handle).resolve_right fun taken =>
      untold (Scheduler.told_of_taken going.found taken)
  have sole : Sole n l.activity.name (c.next t.scheduler) := by
    intro m k' found' name other
    cases old : t.scheduler.loops[m]? with
    | some k =>
      obtain ⟨stopped, moved, kept⟩ := c.next_called called old
      rw [found'] at moved
      cases moved
      exact (going.sole m k old name other).imp id fun told => ⟨kept told.1, told.2⟩
    | none =>
      have idle := (c.next_new t.scheduler found' old).2.1.idle
      rw [name, going.handle] at idle
      cases idle
  exact ⟨stopped, found, handle, sole, going.logged, going.paced, going.beats⟩

/-- Time passes up to the moment for which the loop waits. -/
theorem Going.later (going : Going n start since l t) (awaited : Awaited n [] l t) {now : Nat}
    (later : t.now ≤ now)
    (until_ : ∀ w ∈ t.waits, ∀ till ∈ w.till, t.now ≤ till → now ≤ till) :
    Going n start since l { t with now } ∧ Awaited n [] l { t with now } := by
  obtain ⟨begun, prompt⟩ := awaited.ahead List.not_mem_nil
  have waits := awaited.waits
  rw [if_neg List.not_mem_nil] at waits
  have reached : ∀ till, wait? t.scheduler n = some ⟨n, some till⟩ → t.now ≤ till → now ≤ till := by
    intro till wait
    have among : ⟨n, some till⟩ ∈ t.waits.filter (·.loop = n) := by simp [waits, wait]
    exact until_ _ (List.mem_of_mem_filter among) till rfl
  rw [wait?_of_found going.found] at reached
  have beats := going.beats
  have beats' : Beats l.interval start now (runsOf l.activity.name since t) l.phase := by
    cases phase : l.phase with
    | spawned => exact absurd phase begun
    | waiting time =>
      rw [phase] at beats reached
      obtain ⟨due, r, last, finishes, past, -⟩ := beats
      have early := reached time rfl (prompt time phase)
      exact ⟨due, r, last, finishes, Nat.le_trans past later,
        Nat.le_trans early (Nat.le_max_left _ _)⟩
    | ended | aborted =>
      rw [phase] at beats
      exact beats
    | running time job =>
      rw [phase] at beats reached
      cases job with
      | asked | held => exact beats
      | working ends ending =>
        obtain ⟨due, early, own⟩ := beats
        exact ⟨due, reached ends rfl early, own⟩
  refine ⟨⟨going.found, going.handle, going.sole, going.logged, going.paced, beats'⟩,
    awaited.once, awaited.waits, fun _ => ⟨begun, fun time phase => ?_⟩⟩
  rw [phase] at reached
  exact reached time rfl (prompt time phase)

/-- **The pace is kept** whatever is done and however long time passes. -/
theorem kept_inTime (around : Surroundings World) (n start since : Nat) (a : Activity) :
    Kept around (fun t => InTime n start since a (unbegun t.scheduler) t)
      (InTime n start since a []) where
  weaken t here := by
    refine here.imp id ?_
    rintro ⟨l, activity, going, awaited⟩
    have begun := awaited.ahead List.not_mem_nil
    have absent : n ∉ unbegun t.scheduler := fun among =>
      begun.1 ((mem_unbegun going.found).mp among)
    refine ⟨l, activity, going, ?_, ?_, fun _ => begun⟩
    · exact List.nodup_iff_count_le_one.mp (nodup_unbegun _) n
    · rw [awaited.waits, if_neg absent, if_neg List.not_mem_nil]
  call m t called here := by
    by_cases told : Scheduler.Told n (m.next t.scheduler)
    · exact Or.inl told
    obtain told' | ⟨l, activity, going, awaited⟩ := here
    · exact absurd (told'.next called) told
    obtain ⟨stopped, going'⟩ := going.called called told
    have same : n ∈ unbegun (m.next t.scheduler) ↔ n ∈ unbegun t.scheduler := by
      rw [mem_unbegun going'.found, mem_unbegun going.found]
    refine Or.inr ⟨{ l with stopped }, activity, going', ?_, ?_,
      fun absent => awaited.ahead (mt same.mpr absent)⟩
    · exact List.nodup_iff_count_le_one.mp (nodup_unbegun _) n
    · have waits := awaited.waits
      simp only [← same] at waits
      rw [waits, wait?_of_found going.found, wait?_of_found going'.found]
  work t w runs here := by
    refine here.imp id ?_
    rintro ⟨l, activity, going, awaited⟩
    have same : runsOf l.activity.name since { t with world := w } =
        runsOf l.activity.name since t := runsOf_congr runs
    refine ⟨l, activity, ⟨going.found, going.handle, going.sole, ?_, ?_, ?_⟩, awaited.once,
      awaited.waits, awaited.ahead⟩
    · rw [runs]
      exact going.logged
    · rw [same]
      exact going.paced
    · rw [same]
      exact going.beats
  settle t here := inTime_settle around here
  turn concerned t here := inTime_turnWaiting around concerned here
  pass t now later until_ here := by
    refine here.imp id ?_
    rintro ⟨l, activity, going, awaited⟩
    exact ⟨l, activity, going.later awaited later until_⟩

end Timeline

end TriageDesk.Activity
