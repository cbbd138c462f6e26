/-
TriageDesk.Proofs.Activity.Keeping — what lasts in the course of time, and what
every command keeps.

What happens while time passes is the same for all invariants: `Lasting.waitFor` asks
of one that the turns of loops keep it, and time that passes up to the next moment
for which a loop waits. `Kept.perform` asks in addition that single moves of those who
call the scheduler keep it, and work on the world.
-/
import TriageDesk.Proofs.Activity.Recording

namespace TriageDesk.Activity

open Time

namespace Timeline

variable {World : Type}

/-- An invariant of timelines, `P`, and what holds in addition when all loops have begun, `Q`,
in the course of time. -/
structure Lasting (around : Surroundings World) (P Q : Timeline World → Prop) : Prop where
  weaken : ∀ t, Q t → P t
  settle : ∀ t, P t → Q (settle around t).world
  turn : ∀ concerned t, Q t → Q (turnWaiting around concerned t).world
  /-- Time passes up to the moments for which loops wait. -/
  pass : ∀ t now, t.now ≤ now → (∀ w ∈ t.waits, ∀ till ∈ w.till, t.now ≤ till → now ≤ till) →
    Q t → Q { t with now }

namespace Lasting

variable {around : Surroundings World} {P Q : Timeline World → Prop}

/-- What each turn keeps lasts, if it has nothing to do with time. -/
theorem of_turn (turn : ∀ n t, P t → P (Timeline.turn around n t).world)
    (idle : ∀ t now waits, P t → P { t with now, waits }) : Lasting around P P := by
  have turns : ∀ (things : List Nat) (t : Timeline World), P t →
      P (things.foldl (fun t n => (Timeline.turn around n t).world) t) := by
    intro things
    induction things with
    | nil => exact fun _ here => here
    | cons n rest ih => exact fun t here => ih _ (turn n t here)
  have waiting : ∀ concerned t, P t → P (turnWaiting around concerned t).world := by
    intro concerned t here
    have called : (turnWaiting around concerned t).world =
        ((t.waits.partition (concerned t.scheduler)).1.map Wait.loop).foldl
          (fun t n => (Timeline.turn around n t).world)
          { t with waits := (t.waits.partition (concerned t.scheduler)).2 } := by
      simp only [turnWaiting, Act.bind_apply, Act.look_apply, Act.change_apply, Act.each_world,
        List.foldl_map]
    rw [called]
    exact turns _ _ (idle t t.now _ here)
  refine ⟨fun _ here => here, fun t here => ?_, waiting, fun t now _ _ here => idle t now _ here⟩
  simp only [Timeline.settle, Act.bind_apply, Act.look_apply, Act.each_world]
  exact waiting _ _ (turns _ t here)

/-- What lasts where a record is kept lasts without one, if it is not about the record. -/
theorem of_recording
    (lasting : Lasting (recording around) (fun t => P (forget t)) fun t => Q (forget t)) :
    Lasting around P Q := by
  let kept (t : Timeline World) : Timeline (Recorded World) := { t with world := ⟨t.world, []⟩ }
  refine ⟨fun t => lasting.weaken (kept t), fun t here => ?_, fun concerned t here => ?_,
    fun t => lasting.pass (kept t)⟩
  · have shown : forget (Timeline.settle (recording around) (kept t)).world =
        (Timeline.settle around t).world :=
      (shows_settle around (kept t)).2.1
    rw [← shown]
    exact lasting.settle (kept t) here
  · have shown : forget (turnWaiting (recording around) concerned (kept t)).world =
        (turnWaiting around concerned t).world := (shows_turnWaiting around concerned (kept t)).2.1
    rw [← shown]
    exact lasting.turn concerned (kept t) here

/-- Time may pass up to the next moment for which a loop waits. -/
theorem pass_until (lasting : Lasting around P Q) {t : Timeline World} {limit : Nat}
    (early : ∀ time ∈ nextTime? t, limit ≤ time) (here : Q t) :
    Q { t with now := max t.now limit } := by
  refine lasting.pass t _ (Nat.le_max_left _ _) (fun w among till known later => ?_) here
  have waited : till ∈ t.waits.filterMap (·.till) := List.mem_filterMap.mpr ⟨w, among, known⟩
  obtain ⟨time, next⟩ := Option.isSome_iff_exists.mp (List.isSome_min?_of_mem waited)
  have least : time ≤ till := (List.min?_eq_some_iff.mp next).2 till waited
  exact Nat.max_le.mpr ⟨later, Nat.le_trans (early time next) least⟩

theorem leap (lasting : Lasting around P Q) {t : Timeline World} {time : Nat}
    (next : nextTime? t = some time) (here : Q t) :
    Q (Timeline.leap around time t).world := by
  have passed : Q { t with now := max t.now time } :=
    lasting.pass_until
      (fun time' next' => by rw [next] at next'; cases next'; exact Nat.le_refl _) here
  simp only [Timeline.leap, Act.bind_apply, Act.change_apply]
  exact lasting.settle _ (lasting.weaken _ (lasting.turn _ _ passed))

/-- By induction on the number of moments. -/
theorem leaps (lasting : Lasting around P Q) (done : Scheduler Job → Bool) (limit moments : Nat)
    {t : Timeline World} (here : Q t) :
    Q (Timeline.leaps around done limit moments t).world := by
  induction moments generalizing t with
  | zero => exact here
  | succ moments ih =>
    simp only [Timeline.leaps, Act.bind_apply]
    rw [Act.ite_apply]
    split_ifs with past
    · exact here
    · have looked : nextTime? (Act.look t).result = nextTime? t := rfl
      rw [looked]
      cases next : nextTime? t with
      | none => exact lasting.pass_until (by simp [next]) here
      | some time =>
        simp only []
        rw [Act.ite_apply]
        split_ifs with early
        · exact ih (lasting.leap next here)
        · exact lasting.pass_until (by simpa [next] using early) here

/-- Nothing happens if there is nothing to wait for, and else everything that needs no time. -/
theorem waitFor_cases (lasting : Lasting around P Q) (done : Scheduler Job → Bool) (patience : Nat)
    {t : Timeline World} (here : P t) :
    (done t.scheduler = true ∧ (Timeline.waitFor around done patience t).world = t) ∨
      Q (Timeline.waitFor around done patience t).world := by
  have looked : (Act.look t).result.scheduler = t.scheduler := rfl
  simp only [Timeline.waitFor, Act.bind_apply]
  rw [Act.ite_apply, looked]
  split_ifs with past
  · exact Or.inl ⟨past, rfl⟩
  · exact Or.inr (lasting.leaps done _ _ (lasting.settle t here))

theorem waitFor (lasting : Lasting around P Q) (done : Scheduler Job → Bool) (patience : Nat)
    {t : Timeline World} (here : P t) :
    P (Timeline.waitFor around done patience t).world := by
  rcases lasting.waitFor_cases done patience here with ⟨-, same⟩ | settled
  · rw [same]
    exact here
  · exact lasting.weaken _ settled

end Lasting

/-- Who waits for a condition is told whether it holds in the end. By induction on the number of
moments. -/
theorem leaps_result (around : Surroundings World) (done : Scheduler Job → Bool)
    (limit moments : Nat) (t : Timeline World) :
    (leaps around done limit moments t).result =
      done (leaps around done limit moments t).world.scheduler := by
  induction moments generalizing t with
  | zero => rfl
  | succ moments ih =>
    have looked : (Act.look t).result = t := rfl
    simp only [leaps, Act.bind_apply]
    rw [Act.ite_apply, looked]
    split_ifs with already
    · exact already.symm
    · have missing : done t.scheduler = false := Bool.eq_false_iff.mpr already
      cases next : nextTime? t with
      | none => exact missing.symm
      | some time =>
        simp only []
        rw [Act.ite_apply]
        split_ifs with early
        · exact ih _
        · exact missing.symm

theorem waitFor_result (around : Surroundings World) (done : Scheduler Job → Bool) (patience : Nat)
    (t : Timeline World) :
    (waitFor around done patience t).result =
      done (waitFor around done patience t).world.scheduler := by
  have looked : (Act.look t).result = t := rfl
  simp only [waitFor, Act.bind_apply]
  rw [Act.ite_apply, looked]
  split_ifs with already
  · exact already.symm
  · exact leaps_result around done _ _ _

/-- Who waits for what holds already does not wait. -/
theorem waitFor_of_done (around : Surroundings World) (done : Scheduler Job → Bool) (patience : Nat)
    {t : Timeline World} (already : done t.scheduler = true) :
    (waitFor around done patience t).result = true ∧
      (waitFor around done patience t).world = t := by
  have looked : (Act.look t).result = t := rfl
  simp only [waitFor, Act.bind_apply]
  rw [Act.ite_apply, looked, if_pos already]
  exact ⟨rfl, rfl⟩

/-! ## Stops -/

/-- Who stops an activity takes its handle, if it has one, and waits for the loop behind it. -/
theorem stopActivity_eq (around : Surroundings World) (patience : Nat) (name : String)
    (t : Timeline World) :
    match t.scheduler.handles.get? name with
    | none => (stopActivity around patience name t).result = some false ∧
        (stopActivity around patience name t).world = t
    | some n =>
      let waited := waitFor around (·.isOver n) patience
        { t with scheduler := (Scheduler.Move.beginStopActivity name).next t.scheduler }
      (stopActivity around patience name t).result.isSome = waited.result ∧
        (stopActivity around patience name t).world = waited.world := by
  have taken : (onScheduler (Scheduler.beginStopActivity name) t).result =
      t.scheduler.handles.get? name := Scheduler.beginStopActivity_result t.scheduler name
  have begun : (onScheduler (Scheduler.beginStopActivity name) t).world =
      { t with scheduler := (Scheduler.Move.beginStopActivity name).next t.scheduler } := rfl
  have ends (n : Nat) (t : Timeline World) : (onScheduler (Scheduler.reportEnd n) t).world = t :=
    congrArg (fun scheduler => { t with scheduler }) (Scheduler.next_endStopActivity t.scheduler n)
  simp only [stopActivity, Act.bind_apply]
  rw [taken, begun]
  cases handle : t.scheduler.handles.get? name with
  | none =>
    rw [Scheduler.next_beginStopActivity, handle]
    exact ⟨rfl, rfl⟩
  | some n =>
    simp only [Act.bind_apply]
    rw [Act.ite_apply]
    split_ifs with back
    · exact ⟨back.symm, ends n _⟩
    · exact ⟨(Bool.eq_false_iff.mpr back).symm, rfl⟩

/-- Who stops everything takes all handles and waits for the loops behind them. -/
theorem stop_eq (around : Surroundings World) (patience : Nat) (t : Timeline World) :
    let waited := waitFor around (fun s => t.scheduler.handles.values.all s.isOver) patience
      { t with scheduler := Scheduler.Move.beginStop.next t.scheduler }
    (stop around patience t).result = waited.result ∧
      (stop around patience t).world = waited.world := by
  have ends (t' : Timeline World) :
      (onScheduler (Scheduler.endStop t.scheduler.handles.values) t').world = t' :=
    congrArg (fun scheduler => { t' with scheduler }) (Scheduler.next_endStop t'.scheduler _)
  have taken : (onScheduler Scheduler.beginStop t).result = t.scheduler.handles.values := rfl
  have begun : (onScheduler Scheduler.beginStop t).world =
      { t with scheduler := Scheduler.Move.beginStop.next t.scheduler } := rfl
  simp only [stop, Act.bind_apply]
  rw [taken, begun, Act.ite_apply]
  split_ifs with back
  · exact ⟨back.symm, ends _⟩
  · exact ⟨(Bool.eq_false_iff.mpr back).symm, rfl⟩

/-- What lasts where a record is kept, and is kept by those who call the scheduler and by work
on the world. -/
structure Kept (around : Surroundings World) (P Q : Timeline (Recorded World) → Prop) : Prop
    extends Lasting (recording around) P Q where
  call : ∀ (m : Scheduler.Move Job) t, m.maker? = none → P t →
    P { t with scheduler := m.next t.scheduler }
  work : ∀ t w, w.runs = t.world.runs → P t → P { t with world := w }

namespace Kept

variable {around : Surroundings World} {P Q : Timeline (Recorded World) → Prop}

/-- **What every command keeps.** -/
theorem perform (kept : Kept around P Q) (c : Command World) {t : Timeline (Recorded World)}
    (here : P t) : P (c.recorded.perform (recording around) t).world := by
  cases c with
  | start activities => exact kept.call (.start activities) t rfl here
  | shutdown => exact kept.call .shutdown t rfl here
  | stopActivity patience name =>
    show P (Timeline.stopActivity (recording around) patience name t).world
    have stops := stopActivity_eq (recording around) patience name t
    cases handle : t.scheduler.handles.get? name with
    | none =>
      rw [handle] at stops
      rw [stops.2]
      exact here
    | some n =>
      rw [handle] at stops
      rw [stops.2]
      exact kept.waitFor _ patience (kept.call (.beginStopActivity name) t rfl here)
  | stop patience =>
    show P (Timeline.stop (recording around) patience t).world
    rw [(stop_eq (recording around) patience t).2]
    exact kept.waitFor _ patience (kept.call .beginStop t rfl here)
  | work act =>
    have worked := kept.work t ⟨(act t.world.world).world, t.world.runs⟩ rfl here
    show P (Timeline.inWorld (recording around) _ t).world
    simp only [Timeline.inWorld, Act.bind_apply]
    rw [Act.ite_apply]
    split_ifs
    · exact kept.call .shutdown _ rfl worked
    · exact worked
  | pass milliseconds =>
    show P (Timeline.pass (recording around) milliseconds t).world
    rw [Timeline.pass, Act.ite_apply]
    split_ifs
    · exact here
    · simp only [Act.bind_apply, Act.pure_apply]
      exact kept.waitFor (fun _ => false) milliseconds here

/-- What every history keeps. -/
theorem after (kept : Kept around P Q) {t : Timeline (Recorded World)} (here : P t)
    (commands : List (Command World)) : P (Timeline.after around t commands) := by
  induction commands generalizing t with
  | nil => exact here
  | cons c rest ih => exact ih (kept.perform c here)

end Kept

end Timeline

end TriageDesk.Activity
