/-
TriageDesk.Proofs.Activity.Outline — schedulers with different jobs.

A scheduler knows nothing of what is in flight in its loops. So with other jobs in
the place of its own it goes through the same moves (`next_map`), and two schedulers
that agree apart from their jobs do so after the same move (`next_outline`).
-/
import TriageDesk.Proofs.Activity.Course

namespace TriageDesk.Activity

open Time

variable {Job Job' : Type}

/-! ## Loops -/

/-- A phase with another job in flight. -/
def Loop.Phase.map (f : Job → Job') : Loop.Phase Job → Loop.Phase Job'
  | .spawned => .spawned
  | .running due job => .running due (f job)
  | .waiting due => .waiting due
  | .ended => .ended
  | .aborted => .aborted

/-- A loop with another job in flight. -/
def Loop.map (f : Job → Job') (l : Loop Job) : Loop Job' := ⟨l.activity, l.stopped, l.phase.map f⟩

@[simp] theorem Loop.isOver_map (f : Job → Job') (l : Loop Job) : (l.map f).isOver = l.isOver := by
  obtain ⟨a, stopped, phase⟩ := l
  cases phase <;> rfl

@[simp] theorem Loop.dueAfter?_map (f : Job → Job') (l : Loop Job) (now : Nat) :
    (l.map f).dueAfter? now = l.dueAfter? now := by
  obtain ⟨a, stopped, phase⟩ := l
  cases phase <;> rfl

namespace Scheduler

/-! ## Schedulers -/

/-- A scheduler with other jobs in flight. -/
def map (f : Job → Job') (s : Scheduler Job) : Scheduler Job' :=
  ⟨s.handles, s.loops.map (Loop.map f), s.telemetry, s.shutDown⟩

/-- A move with another job. -/
def Move.map (f : Job → Job') : Move Job → Move Job'
  | .start activities => .start activities
  | .beginStopActivity name => .beginStopActivity name
  | .endStopActivity n => .endStopActivity n
  | .beginStop => .beginStop
  | .endStop taken => .endStop taken
  | .shutdown => .shutdown
  | .beginRun n now moment job => .beginRun n now moment (f job)
  | .proceed n job => .proceed n (f job)
  | .endRun n moment result => .endRun n moment result
  | .abortRun n => .abortRun n
  | .leave n => .leave n

variable {f : Job → Job'}

theorem getElem?_map (s : Scheduler Job) (n : Nat) :
    (s.map f).loops[n]? = s.loops[n]?.map (Loop.map f) := List.getElem?_map

theorem job?_map (s : Scheduler Job) (n : Nat) : (s.map f).job? n = (s.job? n).map f := by
  unfold job?
  rw [getElem?_map]
  cases s.loops[n]? with
  | none => rfl
  | some l =>
    obtain ⟨a, stopped, phase⟩ := l
    cases phase <;> rfl

theorem isOver_map (s : Scheduler Job) (n : Nat) : (s.map f).isOver n = s.isOver n := by
  rw [isOver, getElem?_map, isOver]
  cases s.loops[n]? with
  | none => rfl
  | some l => exact l.isOver_map f

theorem adjust_map (s : Scheduler Job) (n : Nat) {g : Loop Job → Loop Job}
    {h : Loop Job' → Loop Job'} (same : ∀ l, h (l.map f) = (g l).map f) :
    (s.map f).adjust n h = (s.adjust n g).map f := by
  have loops : (s.loops.map (Loop.map f)).modify n h = (s.loops.modify n g).map (Loop.map f) := by
    refine List.ext_getElem? fun k => ?_
    simp only [List.getElem?_modify, List.getElem?_map]
    cases s.loops[k]? with
    | none => rfl
    | some l =>
      simp only [Option.map_some]
      split
      · exact congrArg some (same l)
      · rfl
  simp only [adjust, map, loops]

theorem note_map (s : Scheduler Job) (name : String) (g : Snapshot → Snapshot) :
    (s.map f).note name g = (s.note name g).map f := by
  have telemetry : (s.map f).telemetry = s.telemetry := rfl
  unfold note
  rw [telemetry]
  cases s.telemetry.get? name <;> rfl

theorem started_map (s : Scheduler Job) (a : Activity) :
    (s.map f).started a = (s.started a).map f := by
  have running : (s.map f).isRunning a.name = s.isRunning a.name := rfl
  unfold started
  rw [running]
  split
  · simp [spawn, map, Loop.map, Loop.Phase.map]
  · rfl

/-- **Jobs make no difference.** -/
theorem next_map (m : Move Job) (s : Scheduler Job) :
    (m.map f).next (s.map f) = (m.next s).map f := by
  cases m with
  | start activities =>
    have all : ∀ s : Scheduler Job,
        activities.foldl started (s.map f) = (activities.foldl started s).map f := by
      induction activities with
      | nil => exact fun _ => rfl
      | cons a rest ih =>
        intro s
        rw [List.foldl_cons, List.foldl_cons, started_map, ih]
    have down : (s.map f).shutDown = s.shutDown := rfl
    rw [Move.map, next_start, next_start, down, all]
    split <;> rfl
  | beginStopActivity name =>
    have handles : (s.map f).handles = s.handles := rfl
    rw [Move.map, next_beginStopActivity, next_beginStopActivity, handles]
    cases s.handles.get? name with
    | none => rfl
    | some n =>
      have told := s.adjust_map (f := f) n (g := fun l => { l with stopped := true })
        (h := fun l => { l with stopped := true }) fun _ => rfl
      simp only [told]
      rfl
  | endStopActivity n =>
    rw [Move.map, next_endStopActivity, next_endStopActivity]
  | beginStop =>
    have told : ∀ taken : List Nat,
        (s.loops.map (Loop.map f)).mapIdx
            (fun n l => if n ∈ taken then { l with stopped := true } else l) =
          (s.loops.mapIdx fun n l => if n ∈ taken then { l with stopped := true } else l).map
            (Loop.map f) := by
      intro taken
      refine List.ext_getElem? fun n => ?_
      simp only [List.getElem?_mapIdx, List.getElem?_map]
      cases s.loops[n]? with
      | none => rfl
      | some l =>
        simp only [Option.map_some]
        split <;> rfl
    rw [Move.map, next_beginStop, next_beginStop]
    exact congrArg (Scheduler.mk ∅ · s.telemetry true) (told s.handles.values)
  | endStop taken => rw [Move.map, next_endStop, next_endStop]
  | shutdown => rfl
  | beginRun n now moment job =>
    rw [Move.map, next_beginRun, next_beginRun, getElem?_map]
    cases s.loops[n]? with
    | none => rfl
    | some l =>
      simp only [Option.map_some, Loop.dueAfter?_map]
      cases l.dueAfter? now with
      | none => rfl
      | some due =>
        have begun := s.adjust_map (f := f) n (g := fun l => { l with phase := .running due job })
          (h := fun l => { l with phase := .running due (f job) }) fun _ => rfl
        simp only [setPhase, begun, note_map]
        rfl
  | endRun n moment result =>
    rw [Move.map, next_endRun, next_endRun, getElem?_map]
    cases s.loops[n]? with
    | none => rfl
    | some l =>
      obtain ⟨a, stopped, phase⟩ := l
      cases phase with
      | running due job =>
        have ended := s.adjust_map (f := f) n (g := fun l => { l with phase := .waiting due })
          (h := fun l => { l with phase := .waiting due }) fun _ => rfl
        simp only [Option.map_some, Loop.map, Loop.Phase.map, setPhase, ended, note_map]
      | spawned | waiting | ended | aborted => rfl
  | proceed n job | abortRun n =>
    refine s.adjust_map n fun l => ?_
    obtain ⟨a, stopped, phase⟩ := l
    cases phase <;> rfl
  | leave n =>
    refine s.adjust_map n fun l => ?_
    obtain ⟨a, stopped, phase⟩ := l
    cases phase with
    | waiting due =>
      show (if isTold (s.map f) _ then _ else _) = Loop.map f (if isTold s _ then _ else _)
      have told : isTold (s.map f) (Loop.map f ⟨a, stopped, .waiting due⟩) =
          s.isTold ⟨a, stopped, .waiting due⟩ := rfl
      rw [told]
      split <;> rfl
    | spawned | running | ended | aborted => rfl

/-! ## Outlines -/

/-- A scheduler apart from what is in flight. -/
def outline (s : Scheduler Job) : Scheduler Unit := s.map fun _ => ()

/-- A move apart from what is in flight. -/
def Move.outline (m : Move Job) : Move Unit := m.map fun _ => ()

variable {s : Scheduler Job} {t : Scheduler Job'}

/-- Schedulers that agree apart from their jobs do so after the same move. -/
theorem next_outline (same : s.outline = t.outline) {m : Move Job} {k : Move Job'}
    (agree : m.outline = k.outline) : (m.next s).outline = (k.next t).outline := by
  show (m.next s).map _ = (k.next t).map _
  rw [← next_map, ← next_map]
  show m.outline.next s.outline = k.outline.next t.outline
  rw [same, agree]

theorem handles_outline (same : s.outline = t.outline) : s.handles = t.handles :=
  congrArg Scheduler.handles same

theorem shutDown_outline (same : s.outline = t.outline) : s.shutDown = t.shutDown :=
  congrArg Scheduler.shutDown same

theorem isOver_outline (same : s.outline = t.outline) (n : Nat) : s.isOver n = t.isOver n := by
  rw [← s.isOver_map (f := fun _ => ()), ← t.isOver_map (f := fun _ => ())]
  exact congrArg (·.isOver n) same

/-- What is known of a loop apart from its job. -/
theorem loop_outline (same : s.outline = t.outline) {n : Nat} {l : Loop Job}
    (found : s.loops[n]? = some l) :
    ∃ k, t.loops[n]? = some k ∧ k.activity = l.activity ∧ k.stopped = l.stopped ∧
      ∀ now, k.dueAfter? now = l.dueAfter? now := by
  have loops := congrArg (fun s : Scheduler Unit => s.loops[n]?) same
  simp only [outline, getElem?_map, found, Option.map_some] at loops
  obtain ⟨k, there, same⟩ := Option.map_eq_some_iff.mp loops.symm
  refine ⟨k, there, congrArg Loop.activity same, congrArg Loop.stopped same, fun now => ?_⟩
  rw [← k.dueAfter?_map fun _ => (), same, l.dueAfter?_map]

/-- Runs are in flight in the same loops. -/
theorem isSome_job?_outline (same : s.outline = t.outline) (n : Nat) :
    (s.job? n).isSome = (t.job? n).isSome := by
  have jobs := congrArg (fun s : Scheduler Unit => (s.job? n).isSome) same
  simpa only [outline, job?_map, Option.isSome_map] using jobs

/-- What is over does not depend on jobs. -/
theorem dead_outline (same : s.outline = t.outline) (dead : Dead s) : Dead t where
  shutDown := (shutDown_outline same).symm.trans dead.shutDown
  handles := (handles_outline same).symm.trans dead.handles
  finished l among := by
    obtain ⟨n, found⟩ := List.mem_iff_getElem?.mp among
    have finished := isOver_outline same n
    have all : s.isOver n = true := by
      rw [isOver]
      cases there : s.loops[n]? with
      | none => rfl
      | some k => exact dead.finished k (List.mem_of_getElem? there)
    rw [all, isOver, found] at finished
    exact finished.symm

/-- Going on with a run changes nothing apart from its job. -/
theorem proceed_outline (s : Scheduler Job) (n : Nat) (job : Job) :
    ((Move.proceed n job).next s).outline = s.outline := by
  have loops : ((Move.proceed n job).next s).loops.map (Loop.map fun _ => ()) =
      s.loops.map (Loop.map fun _ => ()) := by
    refine List.ext_getElem? fun k => ?_
    rw [(next_of_maker (m := .proceed n job) rfl s).2.2]
    simp only [List.getElem?_map, List.getElem?_modify]
    cases s.loops[k]? with
    | none => rfl
    | some l =>
      obtain ⟨a, stopped, phase⟩ := l
      simp only [Option.map_some]
      split
      · cases phase <;> rfl
      · rfl
  show (⟨_, _, _, _⟩ : Scheduler Unit) = ⟨_, _, _, _⟩
  rw [loops]
  rfl

end Scheduler

end TriageDesk.Activity
