/-
TriageDesk.Proofs.Activity.Timing — when the runs of an activity begin.

`runs_laws`: as long as a loop is not told to end, the runs of its activity since
its start have the rhythm of its interval (`RunLaws`). The surroundings, what was
done before and what is done meanwhile are arbitrary; another loop of the same
activity may still have a run in flight that it was told to end with. That it
begins no further one is due to the order which histories keep: a loop without a
handle has been told to end (`Orderly`), and it has begun (`Tidy`).
-/
import TriageDesk.Proofs.Activity.Punctuality

namespace TriageDesk.Activity

open Time

namespace Timeline

variable {World : Type} {around : Surroundings World} {n m : Nat} {l : Loop Job}
  {coming : List Nat} {t t' : Timeline (Recorded World)}

/-! ## Histories in order -/

/-- Whoever waits is a loop, and each loop has its handle if it has not been told to end. -/
structure Orderly (t : Timeline (Recorded World)) : Prop where
  known : ∀ w ∈ t.waits, w.loop < t.scheduler.loops.length
  watched : ∀ (n : Nat) l, t.scheduler.loops[n]? = some l →
    t.scheduler.handles.get? l.activity.name = some n ∨ l.stopped = true ∨
      t.scheduler.shutDown = true

/-- Every loop has begun. -/
def AllBegun (t : Timeline (Recorded World)) : Prop :=
  ∀ (n : Nat) l, t.scheduler.loops[n]? = some l → l.phase ≠ .spawned

theorem Touches.length (touches : Touches m t t') :
    t'.scheduler.loops.length = t.scheduler.loops.length := by
  obtain ⟨f, loops, -⟩ := touches.loops
  rw [loops, List.length_modify]

theorem orderly_turn (around : Surroundings World) (m : Nat) (here : Orderly t) :
    Orderly (turn (recording around) m t).world := by
  have touches := touches_turned around m t
  rw [turn_eq]
  constructor
  · intro w among
    show w.loop < (turned around m t).scheduler.loops.length
    rcases List.mem_append.mp among with among | among
    · rw [touches.waits] at among
      rw [touches.length]
      exact here.known w among
    · cases found : (turned around m t).scheduler.loops[m]? with
      | none => simp [wait?, found] at among
      | some l =>
        have own : w.loop = m := by
          have kept := filter_wait? (turned around m t).scheduler m m
          rw [if_pos rfl, List.filter_eq_self] at kept
          exact of_decide_eq_true (kept w among)
        rw [own]
        exact (List.getElem?_eq_some_iff.mp found).1
  · intro n l' found'
    obtain ⟨l, found, activity, stopped, -⟩ := touches.origin found'
    have watched := here.watched n l found
    rw [← activity, ← touches.handles, ← stopped] at watched
    exact watched.imp id (Or.imp id touches.shutDown)

theorem begun_begin (around : Surroundings World) {l' : Loop Job}
    (found' : (begin (recording around) n t).world.scheduler.loops[n]? = some l') :
    l'.phase ≠ .spawned := by
  obtain ⟨l, found, -, -, -, begun⟩ := (touches_begin around n t).origin found'
  by_cases spawned : l.phase = .spawned
  · have due : l.dueAfter? t.now = some (t.now + l.interval) := by simp [Loop.dueAfter?, spawned]
    obtain ⟨moment, plan, w, s, -, asked, done⟩ := begin_of_due around found due
    have running : s.loops[n]? =
        some { l with phase := .running (t.now + l.interval) (.asked (call l.activity)) } := by
      have phase := Scheduler.found_of_maker (m := .beginRun n t.now moment
        (.asked (call l.activity))) rfl t.scheduler
      rw [found, Option.map_some, Scheduler.Move.phaseAfter, due] at phase
      rcases asked with rfl | rfl
      · exact phase
      · exact phase
    rw [done, Scheduler.found_of_maker rfl, running] at found'
    cases found'
    simp [Scheduler.Move.phaseAfter]
  · exact begun spawned

/-- A loop has begun once it has had a turn. -/
theorem begun_turn (around : Surroundings World) (m : Nat) {l' : Loop Job}
    (found' : (turn (recording around) m t).world.scheduler.loops[n]? = some l')
    (begun : n = m ∨ ∀ l, t.scheduler.loops[n]? = some l → l.phase ≠ .spawned) :
    l'.phase ≠ .spawned := by
  rcases begun with rfl | begun
  · obtain ⟨l, found, -, -, -, begun⟩ := (touches_close around n _).origin found'
    exact begun (begun_begin around found)
  · obtain ⟨l, found, -, -, -, stays⟩ := (touches_turned around m t).origin found'
    exact stays (begun l found)

theorem orderly_turns (around : Surroundings World) (coming : List Nat) (here : Orderly t) :
    Orderly (coming.foldl (fun t m => (turn (recording around) m t).world) t) := by
  induction coming generalizing t with
  | nil => exact here
  | cons m coming ih => exact ih (orderly_turn around m here)

/-- By induction on those that have their turns. -/
theorem begun_turns (around : Surroundings World) (coming : List Nat) {l' : Loop Job}
    (found' : (coming.foldl (fun t m => (turn (recording around) m t).world) t).scheduler.loops[n]? =
      some l')
    (begun : n ∈ coming ∨ ∀ l, t.scheduler.loops[n]? = some l → l.phase ≠ .spawned) :
    l'.phase ≠ .spawned := by
  induction coming generalizing t with
  | nil => exact begun.resolve_left List.not_mem_nil l' found'
  | cons m coming ih =>
    refine ih found' ?_
    rw [List.mem_cons] at begun
    rcases begun with (own | later) | begun
    · exact Or.inr fun l found => begun_turn around m found (Or.inl own)
    · exact Or.inl later
    · exact Or.inr fun l found => begun_turn around m found (Or.inr begun)

theorem orderly_turnWaiting (around : Surroundings World)
    (concerned : Scheduler Job → Wait → Bool) (here : Orderly t) (begun : AllBegun t) :
    Orderly (turnWaiting (recording around) concerned t).world ∧
      AllBegun (turnWaiting (recording around) concerned t).world := by
  rw [turnWaiting_eq]
  refine ⟨orderly_turns around _ ⟨fun w among => ?_, here.watched⟩,
    fun n l found => begun_turns around _ found (Or.inr (begun n))⟩
  exact here.known w (List.mem_of_mem_filter among)

/-- All loops have begun once those have had a turn that have not. -/
theorem allBegun_turns (around : Surroundings World) (t : Timeline (Recorded World)) :
    AllBegun ((unbegun t.scheduler).foldl (fun t m => (turn (recording around) m t).world) t) := by
  intro n l' found'
  refine begun_turns around _ found' ?_
  by_cases unbegun : n ∈ unbegun t.scheduler
  · exact Or.inl unbegun
  · exact Or.inr fun l found spawned => unbegun ((mem_unbegun found).mpr spawned)

theorem orderly_settle (around : Surroundings World) (here : Orderly t) :
    Orderly (settle (recording around) t).world ∧ AllBegun (settle (recording around) t).world := by
  rw [settle_eq]
  exact orderly_turnWaiting around isTold (orderly_turns around _ here) (allBegun_turns around t)

/-- Order is kept whatever is done. -/
theorem kept_orderly (around : Surroundings World) :
    Kept around Orderly fun t => Orderly t ∧ AllBegun t where
  weaken _ here := here.1
  call m t called here := by
    constructor
    · intro w among
      have found := List.getElem?_eq_getElem (here.known w among)
      obtain ⟨stopped, found', -⟩ := m.next_called called found
      exact (List.getElem?_eq_some_iff.mp found').1
    · intro n l' found'
      cases old : t.scheduler.loops[n]? with
      | none => exact Or.inl (m.next_new t.scheduler found' old).2.1.handle
      | some l =>
        obtain ⟨stopped, moved, kept⟩ := m.next_called called old
        rw [found'] at moved
        cases moved
        rcases here.watched n l old with handle | told | down
        · rcases m.next_handle t.scheduler handle with handle | taken
          · exact Or.inl handle
          · obtain ⟨l', moved, told⟩ := Scheduler.told_of_taken old taken
            rw [found'] at moved
            cases moved
            exact Or.inr ((Bool.or_eq_true _ _).mp told)
        · exact Or.inr (Or.inl (kept told))
        · exact Or.inr (Or.inr (m.next_shutDown down))
  work _ _ _ here := ⟨here.known, here.watched⟩
  settle _ here := orderly_settle around here
  turn concerned _ here := orderly_turnWaiting around concerned here.1 here.2
  pass _ _ _ _ here := ⟨⟨here.1.known, here.1.watched⟩, here.2⟩

/-- A loop that has been told to end on its own has begun. -/
def Tidy (t : Timeline (Recorded World)) : Prop :=
  t.scheduler.shutDown = false → ∀ l ∈ t.scheduler.loops, l.stopped = true → l.phase ≠ .spawned

theorem tidy_of_allBegun (begun : AllBegun t) : Tidy t := by
  intro _ l among _
  obtain ⟨n, found⟩ := List.mem_iff_getElem?.mp among
  exact begun n l found

/-- A loop has not been told to end when it is new. -/
theorem mem_loops_started {s : Scheduler Job} (activities : List Activity)
    (among : l ∈ (activities.foldl Scheduler.started s).loops) :
    l ∈ s.loops ∨ l.stopped = false := by
  induction activities generalizing s with
  | nil => exact Or.inl among
  | cons a rest ih =>
    refine (ih among).elim (fun among => ?_) Or.inr
    unfold Scheduler.started at among
    split at among
    · rcases List.mem_append.mp among with among | new
      · exact Or.inl among
      · exact Or.inr (List.mem_singleton.mp new ▸ rfl)
    · exact Or.inl among

/-- A loop that has been told to end and is over already. -/
theorem tidy_beginStopActivity {name : String} (tidy : Tidy t)
    (past : ∀ n, t.scheduler.handles.get? name = some n →
      ((Scheduler.Move.beginStopActivity name).next t.scheduler).isOver n = true) :
    Tidy { t with scheduler := (Scheduler.Move.beginStopActivity name).next t.scheduler } := by
  unfold Tidy
  rw [Scheduler.next_beginStopActivity] at past ⊢
  cases handle : t.scheduler.handles.get? name with
  | none => exact tidy
  | some n =>
    intro up l' among told
    obtain ⟨k, found'⟩ := List.mem_iff_getElem?.mp among
    simp only [Scheduler.adjust] at found'
    rw [List.getElem?_modify] at found'
    obtain ⟨l, found, rfl⟩ := Option.map_eq_some_iff.mp found'
    by_cases own : n = k
    · subst own
      have past := past n handle
      simp only [handle, Scheduler.isOver, Scheduler.adjust] at past
      rw [List.getElem?_modify_eq, found] at past
      intro spawned
      simp only [if_true] at spawned
      simp [Loop.isOver, spawned] at past
    · simp only [own, if_false] at told ⊢
      exact tidy up l (List.mem_of_getElem? found) told

theorem tidy_stopActivity (around : Surroundings World) (patience : Nat) (name : String)
    (here : Orderly t) (tidy : Tidy t) :
    Tidy (stopActivity (recording around) patience name t).world := by
  have kept := kept_orderly around
  have stops := stopActivity_eq (recording around) patience name t
  cases handle : t.scheduler.handles.get? name with
  | none =>
    rw [handle] at stops
    rw [stops.2]
    exact tidy
  | some n =>
    rw [handle] at stops
    rw [stops.2]
    rcases kept.waitFor_cases (fun s => s.isOver n) patience
      (kept.call (.beginStopActivity name) t rfl here) with ⟨past, same⟩ | settled
    · rw [same]
      refine tidy_beginStopActivity tidy fun k h => ?_
      rw [handle] at h
      cases h
      exact past
    · exact tidy_of_allBegun settled.2

theorem tidy_stop (around : Surroundings World) (patience : Nat) (here : Orderly t) :
    Tidy (stop (recording around) patience t).world := by
  have kept := kept_orderly around
  rw [(stop_eq (recording around) patience t).2]
  rcases kept.waitFor_cases _ patience (kept.call .beginStop t rfl here) with ⟨-, same⟩ | settled
  · rw [same]
    intro up
    cases up
  · exact tidy_of_allBegun settled.2

/-- **Order between commands.** -/
theorem tidy_perform (around : Surroundings World) (c : Command World) (here : Orderly t)
    (tidy : Tidy t) : Tidy (c.recorded.perform (recording around) t).world := by
  have kept := kept_orderly around
  cases c with
  | shutdown =>
    intro up
    cases up
  | start activities =>
    show Tidy { t with scheduler := (Scheduler.Move.start activities).next t.scheduler }
    unfold Tidy
    rw [Scheduler.next_start]
    split_ifs with down
    · exact tidy
    · intro up l among told
      refine tidy (eq_false_of_ne_true down) l ?_ told
      refine (mem_loops_started activities among).resolve_right fun untold => ?_
      rw [told] at untold
      cases untold
  | stopActivity patience name => exact tidy_stopActivity around patience name here tidy
  | stop patience => exact tidy_stop around patience here
  | work act =>
    show Tidy (inWorld (recording around) _ t).world
    rw [(inWorld_eq _ _ t).2]
    split_ifs
    · intro up
      cases up
    · exact tidy
  | pass milliseconds =>
    show Tidy (pass (recording around) milliseconds t).world
    rw [pass, Act.ite_apply]
    split_ifs
    · exact tidy
    · rcases kept.waitFor_cases (fun _ => false) milliseconds here with ⟨never, -⟩ | settled
      · cases never
      · exact tidy_of_allBegun settled.2

theorem orderly_after (around : Surroundings World) (world : World) (commands : List (Command World)) :
    Orderly (after around (unrecorded world) commands) ∧
      Tidy (after around (unrecorded world) commands) := by
  induction commands using List.reverseRecOn with
  | nil =>
    refine ⟨⟨?_, ?_⟩, ?_⟩
    · intro w among
      cases among
    · intro n l found
      cases found
    · intro _ l among
      cases among
  | append_singleton commands c ih =>
    simp only [after, List.foldl_append, List.foldl_cons, List.foldl_nil] at ih ⊢
    exact ⟨(kept_orderly around).perform c ih.1, tidy_perform around c ih.1 ih.2⟩

/-! ## The runs of an activity -/

/-- A loop that is new is in time. -/
theorem inTime_new (orderly : Orderly t) (tidy : Tidy t) {activities : List Activity}
    (new : t.scheduler.loops[n]? = none)
    (found : ((Scheduler.Move.start activities).next t.scheduler).loops[n]? = some l) :
    InTime n t.now t.world.runs.length l.activity
      (unbegun ((Scheduler.Move.start activities).next t.scheduler))
      { t with scheduler := (Scheduler.Move.start activities).next t.scheduler } := by
  obtain ⟨up, fresh, -⟩ := Scheduler.Move.next_new _ t.scheduler found new
  have unbegun : n ∈ unbegun ((Scheduler.Move.start activities).next t.scheduler) :=
    (mem_unbegun found).mpr fresh.unbegun
  have none : runsOf l.activity.name t.world.runs.length
      { t with scheduler := (Scheduler.Move.start activities).next t.scheduler } = [] := by
    simp [runsOf]
  refine Or.inr ⟨l, rfl, ⟨found, fresh.handle, ?_, Nat.le_refl _, ?_, ?_⟩, ?_, ?_,
    fun absent => absurd unbegun absent⟩
  · intro m k' found' name other
    cases old : t.scheduler.loops[m]? with
    | none =>
      have handle := (Scheduler.Move.next_new _ t.scheduler found' old).2.1.handle
      rw [name, fresh.handle] at handle
      cases handle
      exact absurd rfl other
    | some k =>
      obtain ⟨stopped, moved, kept⟩ :=
        Scheduler.Move.next_called (m := .start activities) rfl old
      rw [found'] at moved
      cases moved
      rcases orderly.watched m k old with handle | told | down
      · rw [name, fresh.idle] at handle
        cases handle
      · exact Or.inr ⟨kept told, tidy up k (List.mem_of_getElem? old) told⟩
      · rw [up] at down
        cases down
  · rw [none]
    exact .none
  · rw [none, fresh.unbegun]
    exact ⟨rfl, rfl⟩
  · exact List.nodup_iff_count_le_one.mp (nodup_unbegun _) n
  · rw [if_pos unbegun, List.filter_eq_nil_iff]
    intro w among own
    have below := orderly.known w among
    rw [of_decide_eq_true own] at below
    exact absurd fresh.unused (Nat.not_le_of_lt below)

/-- **The timing of runs.** Take any history of commands in any surroundings, a start in it, and
a loop which that starts. As long as that loop has not been told to end, alone or with all
others, the runs of its activity since then have the rhythm of its interval. -/
theorem runs_laws (around : Surroundings World) (world : World) (pre post : List (Command World))
    (activities : List Activity)
    (new : (after around (unrecorded world) pre).scheduler.loops[n]? = none)
    (found : (after around (unrecorded world) (pre ++ [.start activities])).scheduler.loops[n]? =
      some l)
    (untold : ¬ Scheduler.Told n
      (after around (unrecorded world) (pre ++ .start activities :: post)).scheduler) :
    RunLaws (Interval.parse l.activity.schedule * 1000)
      (after around (unrecorded world) pre).now
      (after around (unrecorded world) (pre ++ .start activities :: post)).now
      (runsOf l.activity.name (after around (unrecorded world) pre).world.runs.length
        (after around (unrecorded world) (pre ++ .start activities :: post))) := by
  obtain ⟨orderly, tidy⟩ := orderly_after around world pre
  have whole : after around (unrecorded world) (pre ++ .start activities :: post) =
      after around { after around (unrecorded world) pre with
        scheduler := (Scheduler.Move.start activities).next
          (after around (unrecorded world) pre).scheduler } post := by
    rw [after, List.foldl_append]
    rfl
  have started : (after around (unrecorded world) (pre ++ [.start activities])).scheduler =
      (Scheduler.Move.start activities).next (after around (unrecorded world) pre).scheduler := by
    rw [after, List.foldl_append]
    rfl
  rw [started] at found
  rw [whole] at untold ⊢
  have here := (kept_inTime around n _ _ l.activity).after (inTime_new orderly tidy new found) post
  obtain ⟨l', activity, going, -⟩ := here.resolve_left untold
  rw [← activity]
  refine going.paced.laws going.beats.prompt ?_
  intro before r runs finishes
  exact going.beats.complete (by rw [runs]; simp) finishes

/-- An engine whose runs take as long as a script says. -/
def scripted : Surroundings (List Nat) where
  answer _ _ _ := fun works => ⟨⟨works.headD 0, .returns (.ok "done")⟩, works.tail, []⟩
  shutDown _ := false
  clock := return ⟨0, 0⟩

/-- An activity that is due every second. -/
def eager : Activity := ⟨"hunt", "1s", .auto, true⟩

/-- It is stopped without patience while a run of four seconds is in flight. -/
def hasty : List (Command (List Nat)) := [.start [eager], .pass 500, .stopActivity 0 "hunt"]

/-- Started again at once, it keeps its rhythm beside that run: a run of 1800 milliseconds moves
the later ones, and one of 1003 does not. -/
theorem runs_laws_restarted :
    let script := unrecorded [4000, 400, 1800, 1003, 200]
    let t := after scripted script (hasty ++ [.start [eager], .pass 5000])
    RunLaws (Interval.parse eager.schedule * 1000) (after scripted script hasty).now t.now
        (runsOf eager.name (after scripted script hasty).world.runs.length t) ∧
      (runsOf eager.name (after scripted script hasty).world.runs.length t).map (·.begins) =
        [500, 1500, 3300, 4303, 5300] :=
  ⟨@runs_laws _ 1 ⟨eager, false, .spawned⟩ scripted [4000, 400, 1800, 1003, 200] hasty
      [.pass 5000] [eager] (by rfl) (by rfl) (by decide +kernel), by decide +kernel⟩

end Timeline

end TriageDesk.Activity
