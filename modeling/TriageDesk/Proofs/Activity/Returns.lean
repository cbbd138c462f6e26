/-
TriageDesk.Proofs.Activity.Returns — a stop comes back.

Where the engine takes no time (`Swift`), each loop that is alive has still to begin
or waits for something (`Attentive`), whatever has been done. After everything was
shut down a turn of a loop is its last one (`rests_turned`), and when everything
settles each loop that is alive has its turn. So a stop comes back, however little
patience there is (`stop_returns`).
-/
import TriageDesk.Proofs.Activity.Timing

namespace TriageDesk.Activity

open Time

/-! ## Loops between their turns -/

namespace Loop

/-- A turn of a loop can go on from here: it has begun, and the work of its run is done or
waits for the end of everything. -/
def Ready (now : Nat) (l : Loop Job) : Prop :=
  match l.phase with
  | .spawned | .running _ (.asked _) => False
  | .running _ (.working ends _) => ends ≤ now
  | .running _ .held | .waiting _ | .ended | .aborted => True

/-- No run of a loop is at its end: none is in flight, or one that waits for the end of
everything. -/
def Quiet (down : Bool) (l : Loop Job) : Prop :=
  match l.phase with
  | .spawned | .running _ (.asked _) | .running _ (.working ..) => False
  | .running _ .held => down = false
  | .waiting _ | .ended | .aborted => True

/-- A loop after its turn: it is over, or waits, which no loop does once everything is shut
down. -/
def Rests (down : Bool) (l : Loop Job) : Prop :=
  match l.phase with
  | .spawned | .running _ (.asked _) | .running _ (.working ..) => False
  | .running _ .held | .waiting _ => down = false
  | .ended | .aborted => True

theorem Rests.isOver {l : Loop Job} (rests : l.Rests true) : l.isOver = true := by
  obtain ⟨a, stopped, phase⟩ := l
  cases phase with
  | ended | aborted => rfl
  | spawned => exact rests.elim
  | waiting => cases rests
  | running due job =>
    cases job with
    | asked | working => exact rests.elim
    | held => cases rests

theorem Rests.ready {down : Bool} {l : Loop Job} (rests : l.Rests down) (now : Nat) :
    l.Ready now := by
  obtain ⟨a, stopped, phase⟩ := l
  cases phase with
  | ended | aborted | waiting => trivial
  | spawned => exact rests.elim
  | running due job =>
    cases job with
    | asked | working => exact rests.elim
    | held => trivial

end Loop

/-- The engine takes no time in these surroundings. -/
def Swift {World : Type} (around : Surroundings World) : Prop :=
  ∀ now down call w, (around.answer now down call w).result.work = 0

namespace Timeline

/-! ## Turns -/

section

variable {World : Type} {around : Surroundings World} {n : Nat} {l : Loop Job}
  {t : Timeline World}

/-- A run comes to its end if it can. -/
theorem quiet_conclude (around : Surroundings World) (found : t.scheduler.loops[n]? = some l)
    (ready : l.Ready t.now) :
    ∃ l', (conclude around n t).world.scheduler.loops[n]? = some l' ∧
      l'.Quiet t.scheduler.shutDown := by
  have moved {m : Scheduler.Move Job} (made : m.maker? = some n) :
      (m.next t.scheduler).loops[n]? = some { l with phase := m.phaseAfter t.scheduler l } := by
    rw [Scheduler.found_of_maker made, found]
    rfl
  obtain ⟨a, stopped, phase⟩ := l
  rw [conclude_world, Scheduler.job?, found]
  cases phase with
  | spawned => exact ready.elim
  | waiting | ended | aborted => exact ⟨_, found, trivial⟩
  | running due job =>
    cases job with
    | asked => exact ready.elim
    | held =>
      simp only []
      split_ifs with down
      · exact ⟨_, moved (m := .endRun n _ _) rfl, trivial⟩
      · exact ⟨_, found, Bool.eq_false_iff.mpr down⟩
    | working ends ending =>
      have done : ¬ t.now < ends := Nat.not_lt.mpr ready
      simp only [done, if_false]
      cases ending with
      | returns result => exact ⟨_, moved (m := .endRun n _ _) rfl, trivial⟩
      | breaksDown => exact ⟨_, moved (m := .abortRun n) rfl, trivial⟩
      | awaitsShutdown =>
        simp only []
        split_ifs with down
        · exact ⟨_, moved (m := .endRun n _ _) rfl, trivial⟩
        · exact ⟨_, moved (m := .proceed n .held) rfl, Bool.eq_false_iff.mpr down⟩

theorem shutDown_conclude (around : Surroundings World) (n : Nat) (t : Timeline World) :
    (conclude around n t).world.scheduler.shutDown = t.scheduler.shutDown := by
  have kept {m : Scheduler.Move Job} (made : m.maker? = some n) :
      (m.next t.scheduler).shutDown = t.scheduler.shutDown :=
    (Scheduler.next_of_maker made t.scheduler).2.1
  rw [conclude_world]
  split
  · split
    · rfl
    · split
      · exact kept rfl
      · exact kept rfl
      · split
        · exact kept rfl
        · exact kept rfl
  · split
    · exact kept rfl
    · rfl
  · rfl

/-- A run begins that takes no time. -/
theorem ready_begin (swift : Swift around) (found : t.scheduler.loops[n]? = some l)
    (prior : l.phase = .spawned ∨ l.Ready t.now) :
    ∃ l', (begin around n t).world.scheduler.loops[n]? = some l' ∧
      l'.Ready (begin around n t).world.now := by
  cases due : l.dueAfter? t.now with
  | none =>
    rw [begin_of_undue around fun k there => by
      obtain rfl : l = k := Option.some.inj (found.symm.trans there)
      exact due]
    refine ⟨l, found, prior.resolve_left fun spawned => ?_⟩
    simp [Loop.dueAfter?, spawned] at due
  | some time =>
    have asked : (askedFor around n l.activity t).scheduler.loops[n]? =
        some { l with phase := .running time (.asked (call l.activity)) } := by
      refine (Scheduler.found_of_maker (m := .beginRun n _ _ _) rfl t.scheduler).trans ?_
      rw [found, Option.map_some, Scheduler.Move.phaseAfter, due]
    let plan := (answerTo around n l.activity t).result
    have quick : t.now + plan.work = t.now := congrArg (t.now + ·) (swift _ _ _ _)
    rw [begin_world around found due]
    refine ⟨{ l with phase := .running time (.working (t.now + plan.work) plan.ending) }, ?_,
      Nat.le_of_eq quick⟩
    refine (Scheduler.found_of_maker (m := .proceed n _) rfl _).trans ?_
    split
    · exact congrArg (Option.map _) asked
    · exact congrArg (Option.map _) asked

end

section

variable {World : Type} {around : Surroundings World} {n m : Nat} {l : Loop Job}
  {t : Timeline (Recorded World)}

/-- After a run has come to its end, the loop goes if it was told to. -/
theorem rests_close (around : Surroundings World) (found : t.scheduler.loops[n]? = some l)
    (ready : l.Ready t.now) :
    ∃ l', (close around n t).scheduler.loops[n]? = some l' ∧
      l'.Rests (close around n t).scheduler.shutDown := by
  obtain ⟨k, there, quiet⟩ := quiet_conclude (recording around) found ready
  rw [← shutDown_conclude (recording around) n t] at quiet
  have left := Scheduler.found_of_maker (m := .leave n) rfl
    (conclude (recording around) n t).world.scheduler
  have down := (Scheduler.next_of_maker (m := .leave n) rfl
    (conclude (recording around) n t).world.scheduler).2.1
  rw [there, Option.map_some] at left
  refine ⟨_, left, ?_⟩
  show Loop.Rests ((Scheduler.Move.leave n).next _).shutDown _
  rw [down]
  obtain ⟨a, stopped, phase⟩ := k
  cases phase with
  | spawned => exact quiet.elim
  | ended | aborted => trivial
  | running due job =>
    cases job with
    | asked | working => exact quiet.elim
    | held => exact quiet
  | waiting due =>
    simp only [Scheduler.Move.phaseAfter]
    split_ifs with told
    · trivial
    · have untold := Bool.eq_false_iff.mpr told
      rw [Scheduler.isTold, Bool.or_eq_false_iff] at untold
      exact untold.2

/-- A loop that has still to begin is left alone. -/
theorem close_spawned (found : t.scheduler.loops[n]? = some l) (spawned : l.phase = .spawned) :
    (close around n t).scheduler.loops[n]? = some l := by
  obtain ⟨a, stopped, phase⟩ := l
  cases spawned
  have same : (conclude (recording around) n t).world = t := by
    rw [conclude_world, Scheduler.job?, found]
  show ((Scheduler.Move.leave n).next _).loops[n]? = _
  rw [same, Scheduler.found_of_maker rfl, found]
  rfl

/-- **After its turn a loop rests.** -/
theorem rests_turned (swift : Swift around) (found : t.scheduler.loops[n]? = some l)
    (prior : l.phase = .spawned ∨ l.Ready t.now) :
    ∃ l', (turned around n t).scheduler.loops[n]? = some l' ∧
      l'.Rests (turned around n t).scheduler.shutDown := by
  have first : ∃ k, (close around n t).scheduler.loops[n]? = some k ∧
      (k.phase = .spawned ∨ k.Ready (close around n t).now) := by
    rcases prior with spawned | ready
    · exact ⟨l, close_spawned found spawned, Or.inl spawned⟩
    · obtain ⟨k, there, rests⟩ := rests_close around found ready
      exact ⟨k, there, Or.inr (rests.ready _)⟩
  obtain ⟨k, there, prior'⟩ := first
  have swift' : Swift (recording around) := fun now down call w => swift now down call w.world
  obtain ⟨k', there', ready⟩ := ready_begin swift' there prior'
  exact rests_close around there' ready

end

/-! ## Those who are alive -/

/-- Each run in flight waits for the end of everything. -/
def AllHeld {World : Type} (t : Timeline World) : Prop :=
  ∀ (n : Nat) l due job, t.scheduler.loops[n]? = some l → l.phase = .running due job → job = .held

/-- Whoever is alive has still to begin, waits for something, or has a turn to come. -/
structure Attentive {World : Type} (coming : List Nat) (t : Timeline World) : Prop where
  held : AllHeld t
  awake : ∀ (n : Nat) l, t.scheduler.loops[n]? = some l →
    l.isOver = true ∨ l.phase = .spawned ∨ n ∈ t.waits.map Wait.loop ∨ n ∈ coming

/-- Everything was shut down, and whoever is alive has a turn to come. -/
structure Ending {World : Type} (coming : List Nat) (t : Timeline World) : Prop where
  shutDown : t.scheduler.shutDown = true
  held : AllHeld t
  alive : ∀ (n : Nat) l, t.scheduler.loops[n]? = some l → l.isOver = true ∨ n ∈ coming

section

variable {World : Type} {around : Surroundings World} {n m : Nat} {coming : List Nat}
  {t : Timeline (Recorded World)}

theorem Attentive.mono {more : List Nat} (here : Attentive coming t) (within : coming ⊆ more) :
    Attentive more t :=
  ⟨here.held, fun n l found => (here.awake n l found).imp id (Or.imp id (Or.imp id (within ·)))⟩

theorem Ending.mono {more : List Nat} (here : Ending coming t) (within : coming ⊆ more) :
    Ending more t :=
  ⟨here.shutDown, here.held, fun n l found => (here.alive n l found).imp id (within ·)⟩

/-- **Each loop after a turn**: the one that had it rests, and the others are as they were. -/
theorem found_turn (swift : Swift around) (held : AllHeld t) {l' : Loop Job}
    (found' : (turn (recording around) m t).world.scheduler.loops[n]? = some l') :
    n = m ∧ l'.Rests (turn (recording around) m t).world.scheduler.shutDown ∨
      n ≠ m ∧ t.scheduler.loops[n]? = some l' := by
  rw [turn_eq] at found' ⊢
  have touches := touches_turned around m t
  by_cases own : n = m
  · subst own
    obtain ⟨l, found, -⟩ := touches.origin found'
    have prior : l.phase = .spawned ∨ l.Ready t.now := by
      have only := held n l
      obtain ⟨a, stopped, phase⟩ := l
      cases phase with
      | spawned => exact Or.inl rfl
      | waiting | ended | aborted => exact Or.inr trivial
      | running due job =>
        obtain rfl := only due job found rfl
        exact Or.inr trivial
    obtain ⟨k, there, rests⟩ := rests_turned swift found prior
    obtain rfl : l' = k := Option.some.inj (found'.symm.trans there)
    exact Or.inl ⟨rfl, rests⟩
  · exact Or.inr ⟨own, (touches.loop_ne own).symm.trans found'⟩

theorem held_turn (swift : Swift around) (held : AllHeld t) :
    AllHeld (turn (recording around) m t).world := by
  intro n l due job found' running
  rcases found_turn swift held found' with ⟨-, rests⟩ | ⟨-, found⟩
  · obtain ⟨a, stopped, phase⟩ := l
    cases running
    cases job with
    | held => rfl
    | asked | working => exact rests.elim
  · exact held n l due job found running

theorem attentive_turn (swift : Swift around) (here : Attentive (m :: coming) t) :
    Attentive coming (turn (recording around) m t).world := by
  refine ⟨held_turn swift here.held, fun n l' found' => ?_⟩
  have waits : (turn (recording around) m t).world.waits =
      t.waits ++ (wait? (turn (recording around) m t).world.scheduler m).toList := by
    rw [turn_eq, ← (touches_turned around m t).waits]
  rw [waits, List.map_append, List.mem_append]
  rcases found_turn swift here.held found' with ⟨rfl, rests⟩ | ⟨other, found⟩
  · rw [wait?_of_found found']
    obtain ⟨a, stopped, phase⟩ := l'
    cases phase with
    | spawned => exact rests.elim
    | ended | aborted => exact Or.inl rfl
    | waiting due => exact Or.inr (Or.inr (Or.inl (Or.inr (by simp))))
    | running due job =>
      cases job with
      | asked | working => exact rests.elim
      | held => exact Or.inr (Or.inr (Or.inl (Or.inr (by simp))))
  · rcases here.awake n l' found with past | spawned | waiting | turns
    · exact Or.inl past
    · exact Or.inr (Or.inl spawned)
    · exact Or.inr (Or.inr (Or.inl (Or.inl waiting)))
    · exact Or.inr (Or.inr (Or.inr ((List.mem_cons.mp turns).resolve_left other)))

/-- By induction on those that have their turns. -/
theorem attentive_turns (swift : Swift around) (things : List Nat)
    (here : Attentive (things ++ coming) t) :
    Attentive coming (things.foldl (fun t m => (turn (recording around) m t).world) t) := by
  induction things generalizing t with
  | nil => exact here
  | cons m rest ih => exact ih (attentive_turn swift here)

theorem shutDown_turn (around : Surroundings World) (m : Nat)
    (down : t.scheduler.shutDown = true) :
    (turn (recording around) m t).world.scheduler.shutDown = true := by
  rw [turn_eq]
  exact (touches_turned around m t).shutDown down

theorem ending_turn (swift : Swift around) (here : Ending (m :: coming) t) :
    Ending coming (turn (recording around) m t).world := by
  have down := shutDown_turn around m here.shutDown
  refine ⟨down, held_turn swift here.held, fun n l' found' => ?_⟩
  rcases found_turn swift here.held found' with ⟨-, rests⟩ | ⟨other, found⟩
  · rw [down] at rests
    exact Or.inl rests.isOver
  · exact (here.alive n l' found).imp id fun turns => (List.mem_cons.mp turns).resolve_left other

theorem ending_turns (swift : Swift around) (things : List Nat)
    (here : Ending (things ++ coming) t) :
    Ending coming (things.foldl (fun t m => (turn (recording around) m t).world) t) := by
  induction things generalizing t with
  | nil => exact here
  | cons m rest ih => exact ih (ending_turn swift here)

theorem shutDown_turns (around : Surroundings World) (things : List Nat)
    (down : t.scheduler.shutDown = true) :
    (things.foldl (fun t m => (turn (recording around) m t).world) t).scheduler.shutDown =
      true := by
  induction things generalizing t with
  | nil => exact down
  | cons m rest ih => exact ih (shutDown_turn around m down)

/-- Whoever waits goes on to, or is called. -/
theorem attentive_turnWaiting (swift : Swift around) (concerned : Scheduler Job → Wait → Bool)
    (here : Attentive [] t) : Attentive [] (turnWaiting (recording around) concerned t).world := by
  rw [turnWaiting_eq]
  refine attentive_turns swift _ ⟨here.held, fun n l found => ?_⟩
  rcases here.awake n l found with past | spawned | waiting | turns
  · exact Or.inl past
  · exact Or.inr (Or.inl spawned)
  · obtain ⟨w, among, rfl⟩ := List.mem_map.mp waiting
    rw [List.append_nil]
    cases called : concerned t.scheduler w with
    | true =>
      exact Or.inr (Or.inr (Or.inr (List.mem_map_of_mem (List.mem_filter.mpr ⟨among, called⟩))))
    | false =>
      refine Or.inr (Or.inr (Or.inl (List.mem_map_of_mem (List.mem_filter.mpr ⟨among, ?_⟩))))
      rw [called]
      rfl
  · cases turns

theorem attentive_settle (swift : Swift around) (here : Attentive [] t) :
    Attentive [] (settle (recording around) t).world := by
  rw [settle_eq]
  exact attentive_turnWaiting swift isTold
    (attentive_turns swift _ (here.mono (List.nil_subset _)))

/-- **Once everything is shut down, all loops end when everything settles.** -/
theorem ending_settle (swift : Swift around) (here : Attentive [] t)
    (down : t.scheduler.shutDown = true) : Ending [] (settle (recording around) t).world := by
  have begun := allBegun_turns around t
  have down' := shutDown_turns around (unbegun t.scheduler) down
  have here' : Attentive [] _ :=
    attentive_turns swift (unbegun t.scheduler) (here.mono (List.nil_subset _))
  rw [settle_eq]
  generalize (unbegun t.scheduler).foldl _ t = t' at begun down' here'
  rw [turnWaiting_eq]
  refine ending_turns swift _ ⟨down', here'.held, fun n l found => ?_⟩
  rcases here'.awake n l found with past | spawned | waiting | turns
  · exact Or.inl past
  · exact absurd spawned (begun n l found)
  · obtain ⟨w, among, rfl⟩ := List.mem_map.mp waiting
    cases finished : l.isOver with
    | true => exact Or.inl rfl
    | false =>
      refine Or.inr ?_
      rw [List.append_nil]
      refine List.mem_map_of_mem (List.mem_filter.mpr ⟨among, ?_⟩)
      have held := here'.held w.loop l
      have unspawned := begun w.loop l found
      rw [isTold, found]
      obtain ⟨a, stopped, phase⟩ := l
      cases phase with
      | spawned => exact absurd rfl unspawned
      | ended | aborted => cases finished
      | waiting due => simp [Scheduler.isTold, down']
      | running due job =>
        obtain rfl := held due job found rfl
        exact down'
  · cases turns

end

/-! ## The course of time -/

section

variable {World : Type} {around : Surroundings World} {t : Timeline World}

theorem Ending.attentive (ending : Ending [] t) : Attentive [] t :=
  ⟨ending.held, fun n l found => (ending.alive n l found).imp id fun turns => by cases turns⟩

/-- **Whoever is alive stays attentive**, whatever happens in the course of time. -/
theorem lasting_attentive (swift : Swift around) :
    Lasting around (Attentive []) (Attentive []) := by
  refine .of_recording ⟨fun _ here => here, fun t here => ?_, fun concerned t here => ?_,
    fun t now _ _ here => ⟨here.held, here.awake⟩⟩
  · have settled := attentive_settle swift (t := t) ⟨here.held, here.awake⟩
    exact ⟨settled.held, settled.awake⟩
  · have waited := attentive_turnWaiting swift concerned (t := t) ⟨here.held, here.awake⟩
    exact ⟨waited.held, waited.awake⟩

/-- Once everything is shut down, all loops end. -/
theorem lasting_ending (swift : Swift around) :
    Lasting around (fun t => Attentive [] t ∧ t.scheduler.shutDown = true) (Ending []) := by
  refine .of_recording ⟨fun _ ending => ⟨ending.attentive, ending.shutDown⟩, fun t here => ?_,
    fun concerned t here => ?_, fun t now _ _ here => ⟨here.shutDown, here.held, here.alive⟩⟩
  · have settled := ending_settle swift (t := t) ⟨here.1.held, here.1.awake⟩ here.2
    exact ⟨settled.shutDown, settled.held, settled.alive⟩
  · have ending : Ending [] (turnWaiting (recording around) concerned t).world := by
      rw [turnWaiting_eq]
      refine ending_turns swift _ ⟨here.shutDown, here.held, fun n l found => ?_⟩
      exact (here.alive n l found).imp id fun turns => by cases turns
    exact ⟨ending.shutDown, ending.held, ending.alive⟩

/-- Those who call the scheduler leave everyone attentive. -/
theorem Attentive.call (here : Attentive [] t) {m : Scheduler.Move Job} (called : m.maker? = none) :
    Attentive [] { t with scheduler := m.next t.scheduler } := by
  have before (n : Nat) (l' : Loop Job) (found' : (m.next t.scheduler).loops[n]? = some l') :
      l'.phase = .spawned ∨ ∃ l, t.scheduler.loops[n]? = some l ∧ l'.phase = l.phase := by
    cases old : t.scheduler.loops[n]? with
    | none => exact Or.inl (m.next_new t.scheduler found' old).2.1.unbegun
    | some l =>
      obtain ⟨stopped, moved, -⟩ := m.next_called called old
      rw [found'] at moved
      cases moved
      exact Or.inr ⟨l, rfl, rfl⟩
  refine ⟨fun n l' due job found' running => ?_, fun n l' found' => ?_⟩
  · rcases before n l' found' with spawned | ⟨l, found, same⟩
    · rw [spawned] at running
      cases running
    · exact here.held n l due job found (same.symm.trans running)
  · rcases before n l' found' with spawned | ⟨l, found, same⟩
    · exact Or.inr (Or.inl spawned)
    · have alike : l'.isOver = l.isOver := by rw [Loop.isOver, Loop.isOver, same]
      rw [alike, same]
      exact here.awake n l found

/-- **A stop comes back**, with any patience. -/
theorem stop_returns (swift : Swift around) (here : Attentive [] t) (patience : Nat) :
    (stop around patience t).result = true := by
  rw [(stop_eq around patience t).1, waitFor_result]
  have begun : Attentive [] { t with scheduler := Scheduler.Move.beginStop.next t.scheduler } :=
    here.call rfl
  rcases (lasting_ending swift).waitFor_cases
    (fun s => t.scheduler.handles.values.all s.isOver) patience ⟨begun, rfl⟩ with
    ⟨already, same⟩ | ending
  · rw [same]
    exact already
  · rw [List.all_eq_true]
    intro n _
    rw [Scheduler.isOver]
    cases found : (waitFor around _ patience _).world.scheduler.loops[n]? with
    | none => rfl
    | some l => exact (ending.alive n l found).resolve_right List.not_mem_nil

end

end Timeline

end TriageDesk.Activity
