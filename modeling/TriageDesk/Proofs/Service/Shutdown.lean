/-
TriageDesk.Proofs.Service.Shutdown — a service that has been stopped.

An `Order` is something that a service is asked for, and orders are carried out one
after the other, by the functions of the service themselves. `shutdown_laws` says what
holds of a stop after any orders, and whatever is ordered later.

A stop comes back (`stop_comesBack`), since a loop that is alive waits for something,
and is told. What it waits for is said by the scene that shows the course: the stop is
one of that scene (`shows_stop`), so the laws of stops apply to it (`stop_laws`), and
every run that is in flight when it begins is interrupted. What it leaves alone is read
off the course itself: from the beginning of a stop on nothing happens but that the
clock is read (`lasting_rests`), so the ways to other servers are closed after the last
loop has ended and not before. After that no turn of a loop does anything
(`Over.perform`).
-/
import TriageDesk.Proofs.Activity.Returns
import TriageDesk.Proofs.Service.Performance
import TriageDesk.Proofs.Service.Stops
import TriageDesk.Proofs.Trace

namespace TriageDesk.Service

open Activity Agent Time

variable {Model : Type}

/-! ## Orders -/

/-- Something that is done with a service. -/
inductive Order
  /-- The service starts its activities. -/
  | start
  /-- Some activities are started. -/
  | startThese (activities : List Activity)
  | stopActivity (patience : Nat) (name : String)
  | stop (patience : Nat)
  /-- The signal is given that everything is to end. -/
  | signal
  /-- Work at the desk, which keeps the ways to other servers as they are. -/
  | work (act : Act Desk Unit) (keeps : ∀ d, (act d).world.queriesOpen = d.queriesOpen ∧
      (act d).world.disposalsOpen = d.disposalsOpen)
  /-- Everything happens that needs no time. -/
  | settle
  | pass (milliseconds : Nat)

namespace Order

/-- Carries out an order: whether the one who gave it has come back. -/
def perform (s : Service) (ask : Asking Model) : Order → Act (Course Model) Bool
  | .start => do
    s.start
    return true
  | .startThese activities => do
    Timeline.onScheduler (Scheduler.start activities)
    return true
  | .stopActivity patience name => do
    return (← Timeline.stopActivity (s.surroundings ask) patience name).isSome
  | .stop patience => s.stop ask patience
  | .signal => do
    s.signal ask
    return true
  | .work act _ => do
    onDesk act
    return true
  | .settle => do
    Timeline.settle (s.surroundings ask)
    return true
  | .pass milliseconds => do
    Timeline.pass (s.surroundings ask) milliseconds
    return true

theorem perform_pass (s : Service) (ask : Asking Model) (milliseconds : Nat) (c : Course Model) :
    ((Order.pass milliseconds).perform s ask c).world =
      if milliseconds = 0 then c
      else (Timeline.waitFor (s.surroundings ask) (fun _ => false) milliseconds c).world := by
  simp only [perform, Act.bind_apply, Timeline.pass]
  rw [Act.ite_apply]
  split_ifs <;> rfl

theorem perform_signal (s : Service) (ask : Asking Model) (c : Course Model) :
    (Order.signal.perform s ask c).world =
      { c with
        scheduler := Scheduler.Move.shutdown.next c.scheduler
        world := { c.world with world := { c.world.world with signalled := true } } } :=
  (Timeline.inWorld_eq (s.surroundings ask)
    (Act.change fun w => { w with world := { w.world with signalled := true } }) c).2

/-- What an order is for the workplace, where no loop does anything. -/
def onWorkplace : Order → Workplace Model → Workplace Model
  | .signal, w => { w with signalled := true }
  | .work act _, w => { w with desk := (act w.desk).world }
  | _, w => w

end Order

/-- A course after some orders. -/
abbrev final (s : Service) (ask : Asking Model) (c : Course Model) (orders : List Order) :
    Course Model :=
  Trace.final (Order.perform s ask) c orders

/-- Everyone who gave an order has come back. -/
def AllBack (s : Service) (ask : Asking Model) (c : Course Model) (orders : List Order) : Prop :=
  ∀ e ∈ Trace.record (Order.perform s ask) c orders, e.answer = true

instance (s : Service) (ask : Asking Model) (c : Course Model) (orders : List Order) :
    Decidable (AllBack s ask c orders) :=
  inferInstanceAs (Decidable (∀ e ∈ Trace.record (Order.perform s ask) c orders, e.answer = true))

/-! ## Orders in scenes -/

section

variable {s : Service} {ask : Asking Model} {x : Scene Model} {c : Course Model} {down : Bool}

/-- The moves of those who call the scheduler. -/
theorem shows_called {m : Move Model} {k : Scheduler.Move Flight} {j : Scheduler.Move Job}
    (shows_ : Shows x c) (same : m.onScheduler s x = some k) (rest : m.onSessions s x = x.sessions)
    (agree : k.outline = j.outline) (caller : k.maker? = none) (caller' : j.maker? = none) :
    Shows (m.next s x) { c with scheduler := j.next c.scheduler } := by
  have moved := scheduler_of_move same
  refine ⟨rest.trans shows_.sessions, ?_, fun n job => ?_, fun n f => ?_, fun signalled => ?_⟩
  · rw [moved]
    exact Scheduler.next_outline shows_.scheduler agree
  · rw [Scheduler.job?_of_not_maker (by simp [caller'])]
    exact shows_.held n job
  · rw [Scene.flight?, moved, Scheduler.job?_of_not_maker (by simp [caller])]
    exact shows_.underway n f
  · exact j.next_shutDown (shows_.signalled signalled)

theorem Leads.stopping {y : Scene Model} (leads : Leads s down x y) : y.stopping = x.stopping := by
  obtain ⟨moves, own, rfl⟩ := leads
  induction moves generalizing x with
  | nil => rfl
  | cons m rest ih =>
    rw [after_cons, ih fun k among => own k (List.mem_cons_of_mem _ among)]
    exact (own m List.mem_cons_self).onStopping x

/-- What happens in the course of time happens in the scene. -/
theorem Shows.of_reaches {c' : Course Model} (reaches : Reaches s down x c') :
    ∃ moves, Shows (s.after x moves) c' ∧ (s.after x moves).stopping = x.stopping := by
  obtain ⟨y, ⟨moves, own, rfl⟩, shows'⟩ := reaches.shown
  exact ⟨moves, shows', Leads.stopping ⟨moves, own, rfl⟩⟩

theorem Shows.reaches (shows_ : Shows x c) : Reaches s c.scheduler.shutDown x c :=
  ⟨id, x, .refl s _ x, shows_⟩

/-! ## One stop -/

/-- A service that stops waits for its loops, and closes the ways to other servers when they are
over. -/
theorem stop_eq (s : Service) (ask : Asking Model) (patience : Nat) (c : Course Model) :
    let waited := Timeline.stop (s.surroundings ask) patience c
    (s.stop ask patience c).result = waited.result ∧
      (s.stop ask patience c).world =
        (if waited.result then (onDesk Desk.close waited.world).world else waited.world) ∧
      (s.stop ask patience c).events =
        waited.events ++ if waited.result then [.serviceStopped] else [] := by
  intro waited
  unfold stop
  simp only [Act.bind_apply]
  rw [Act.ite_apply]
  show (if waited.result = true then _ else _ : Act.Done _ _).result = _ ∧
    (if waited.result = true then _ else _ : Act.Done _ _).world = _ ∧
    waited.events ++ (if waited.result = true then _ else _ : Act.Done _ _).events = _
  split_ifs with back
  · exact ⟨back.symm, rfl, rfl⟩
  · exact ⟨(Bool.eq_false_iff.mpr back).symm, rfl, rfl⟩

/-- After everything was shut down, a run that is in flight no more was interrupted. -/
theorem interrupted_of_gone {moves : List (Move Model)} (own : ∀ m ∈ moves, m.OfLoops true)
    {n : Nat} {f : Flight} (found : x.flight? n = some f) (underway : f.run.isEnded = false)
    (gone : (s.after x moves).flight? n = none) : Interrupted s x moves n := by
  induction moves generalizing x with
  | nil =>
    rw [show s.after x [] = x from rfl, found] at gone
    cases gone
  | cons m rest ih =>
    have here := own m List.mem_cons_self
    have goes := s.flight?_next m x n
    have later (still : (m.next s x).flight? n = some f) : Interrupted s x (m :: rest) n := by
      obtain ⟨first, last, g, split, inFlight, going⟩ :=
        ih (fun k among => own k (List.mem_cons_of_mem _ among)) still gone
      exact ⟨m :: first, last, g, by rw [split]; rfl, inFlight, going⟩
    rw [found] at goes
    generalize after : (m.next s x).flight? n = after at goes
    cases goes with
    | stays => exact later after
    | hears | handsOver | observes => cases here
    | isInterrupted => exact ⟨[], rest, f, rfl, found, underway⟩
    | ends _ ended =>
      rw [underway] at ended
      cases ended
    | aborts => exact here.elim

/-- Who has come back from a stop waits no more. -/
theorem Stops.nobody_stopped {moves : List (Move Model)} (stops : Stops s x moves) :
    (s.stopped x moves).stopping = [] := by
  rw [stopped, s.endStop_of_returns stops.returns]
  rcases ((s.closing_stopping stops.nobody).after s stops.alone).waits with waits | nobody
  · simp [waits]
  · simp [nobody]

/-- **A stop of a service is a stop in the scene that shows it**, and what is in flight there is
interrupted. -/
theorem shows_stop (only : AsksOnly ask) (shows_ : Shows x c) (nobody : x.stopping = [])
    (attended : Attended x) {patience : Nat} (back : (s.stop ask patience c).result = true) :
    ∃ moves, Stops s x moves ∧ Shows (s.stopped x moves) (s.stop ask patience c).world ∧
      ∀ n f, x.flight? n = some f → Interrupted s (s.stopping x) moves n := by
  obtain ⟨result, world, -⟩ := stop_eq s ask patience c
  obtain ⟨result', world'⟩ := Timeline.stop_eq (s.surroundings ask) patience c
  rw [← result, back, if_pos rfl, world'] at world
  rw [result, result'] at back
  have begun : Shows (s.stopping x) _ :=
    shows_called (s := s) (m := .beginStop) (j := .beginStop) shows_ rfl rfl rfl rfl rfl
  have waited := (lasting_reaches s only true (s.stopping x)).waitFor
    (fun s => c.scheduler.handles.values.all s.isOver) patience
    ⟨fun _ => rfl, _, .refl s true _, begun⟩
  have ended := (Timeline.waitFor_result _ _ _ _).symm.trans back
  obtain ⟨-, y, ⟨moves, own, rfl⟩, shows'⟩ := waited
  have waits : (s.after (s.stopping x) moves).stopping =
      [.everything x.scheduler.handles.values] := by
    rw [Leads.stopping ⟨moves, own, rfl⟩]
    show Stopping.everything _ :: x.stopping = _
    rw [nobody]
  have returns : (s.after (s.stopping x) moves).returns (.everything x.scheduler.handles.values) =
      true := by
    simp only [Scene.returns, waits, List.mem_singleton, decide_true, Bool.true_and,
      Stopping.loops, List.all_eq_true] at ended ⊢
    intro n taken
    rw [Scheduler.isOver_outline shows'.scheduler]
    exact ended n (Scheduler.handles_outline shows_.scheduler ▸ taken)
  have stops : Stops s x moves := ⟨nobody, fun m among => (own m among).ne_beginStop, returns⟩
  refine ⟨moves, stops, ?_, fun n f found => ?_⟩
  · rw [stopped, s.endStop_of_returns returns, world]
    refine ⟨?_, shows'.scheduler, shows'.held, shows'.underway, shows'.signalled⟩
    rw [shows'.sessions]
    rfl
  · exact interrupted_of_gone own ((s.flight?_stopping x n).trans found) (shows_.underway n f found)
      ((dead_of_returns attended stops).job? n)

/-- So is the stop of one activity. -/
theorem shows_stopActivity (only : AsksOnly ask) (shows_ : Shows x c) (nobody : x.stopping = [])
    {patience : Nat} {name : String}
    (back : (Timeline.stopActivity (s.surroundings ask) patience name c).result.isSome = true) :
    ∃ moves, Shows (s.after x moves)
        (Timeline.stopActivity (s.surroundings ask) patience name c).world ∧
      (s.after x moves).stopping = [] := by
  have stops := Timeline.stopActivity_eq (s.surroundings ask) patience name c
  cases handle : c.scheduler.handles.get? name with
  | none =>
    rw [handle] at stops
    rw [stops.2]
    exact ⟨[], shows_, nobody⟩
  | some n =>
    rw [handle] at stops
    rw [stops.2]
    rw [stops.1] at back
    let x₀ := (Move.beginStopActivity name).next s x
    have begun : Shows x₀ _ := shows_called (s := s) (m := .beginStopActivity name)
      (j := .beginStopActivity name) shows_ rfl rfl rfl rfl rfl
    have waits : x₀.stopping = [.activity n] := by
      show ((x.scheduler.handles.get? name).map Stopping.activity).toList ++ x.stopping = _
      rw [Scheduler.handles_outline shows_.scheduler, handle, nobody]
      rfl
    have waited := (lasting_reaches s only false x₀).waitFor (fun s => s.isOver n) patience
      ⟨fun down => absurd down (by simp), _, .refl s false _, begun⟩
    have ended := (Timeline.waitFor_result _ _ _ _).symm.trans back
    obtain ⟨-, y, ⟨moves, own, rfl⟩, shows'⟩ := waited
    have waits' : (s.after x₀ moves).stopping = [.activity n] :=
      (Leads.stopping ⟨moves, own, rfl⟩).trans waits
    have returns : (s.after x₀ moves).returns (.activity n) = true := by
      simp only [Scene.returns, waits', List.mem_singleton, decide_true, Bool.true_and,
        Stopping.loops, List.all_cons, List.all_nil, Bool.and_true]
      rw [Scheduler.isOver_outline shows'.scheduler]
      exact ended
    have ends : Move.onScheduler s (s.after x₀ moves) (.endStopActivity n) =
        some (.endStopActivity n) := by
      simp [Move.onScheduler, returns]
    have gone : Shows ((Move.endStopActivity n).next s (s.after x₀ moves)) _ :=
      shows_called (s := s) (m := .endStopActivity n) (j := .endStopActivity n) shows'
        ends rfl rfl rfl rfl
    rw [Scheduler.next_endStopActivity] at gone
    refine ⟨.beginStopActivity name :: moves ++ [.endStopActivity n], ?_, ?_⟩
    · rw [after_append]
      exact gone
    · rw [after_append]
      show Move.onStopping (s.after x₀ moves) (.endStopActivity n) = []
      simp [Move.onStopping, returns, waits']

/-- **An order is carried out in the scene, too**, once the one who gave it has come back. -/
theorem shows_order (only : AsksOnly ask) (shows_ : Shows x c) (nobody : x.stopping = [])
    (attended : Attended x) (o : Order) (back : (o.perform s ask c).result = true) :
    ∃ moves, Shows (s.after x moves) (o.perform s ask c).world ∧
      (s.after x moves).stopping = [] := by
  have inTime {c' : Course Model} {down : Bool} (reaches : Reaches s down x c') :
      ∃ moves, Shows (s.after x moves) c' ∧ (s.after x moves).stopping = [] := by
    rw [← nobody]
    exact Shows.of_reaches reaches
  have lasting := lasting_reaches s only c.scheduler.shutDown x
  cases o with
  | start =>
    exact ⟨[.start s.activities], shows_called (m := .start s.activities)
      (j := .start s.activities) shows_ rfl rfl rfl rfl rfl, nobody⟩
  | startThese activities =>
    exact ⟨[.start activities], shows_called (m := .start activities)
      (j := .start activities) shows_ rfl rfl rfl rfl rfl, nobody⟩
  | stopActivity patience name => exact shows_stopActivity only shows_ nobody back
  | stop patience =>
    obtain ⟨moves, stops, shows', -⟩ := shows_stop only shows_ nobody attended back
    refine ⟨.beginStop :: moves ++ [.endStop x.scheduler.handles.values], ?_, ?_⟩
    · rw [after_append]
      exact shows'
    · rw [after_append]
      exact stops.nobody_stopped
  | signal =>
    rw [Order.perform_signal]
    refine ⟨[.signal], ?_, nobody⟩
    refine ⟨?_, Scheduler.next_outline (m := .shutdown) (k := .shutdown) shows_.scheduler rfl,
      fun n job => ?_, fun n f => ?_, fun _ => rfl⟩
    · exact congrArg (fun v : Sessions (Workplace Model) =>
        { v with world := { v.world with signalled := true } }) shows_.sessions
    · exact shows_.held n job
    · exact shows_.underway n f
  | work act keeps =>
    have kept : KeepsWays fun w : Workplace Model => { w with desk := (act w.desk).world } :=
      fun w => keeps w.desk
    refine ⟨[.elsewhere _ kept], ?_, nobody⟩
    refine ⟨?_, shows_.scheduler, shows_.held, shows_.underway, shows_.signalled⟩
    exact congrArg (fun v : Sessions (Workplace Model) =>
      { v with world := { v.world with desk := (act v.world.desk).world } }) shows_.sessions
  | settle => exact inTime (lasting.settle c (Shows.reaches shows_))
  | pass milliseconds =>
    rw [Order.perform_pass]
    split_ifs
    · exact ⟨[], shows_, nobody⟩
    · exact inTime (lasting.waitFor (fun _ => false) milliseconds (Shows.reaches shows_))

/-- **Orders are carried out in a scene**, one after the other, if everyone has come back. By
induction on the orders. -/
theorem shows_orders (only : AsksOnly ask) (shows_ : Shows x c) (nobody : x.stopping = [])
    (attended : Attended x) {orders : List Order} (back : AllBack s ask c orders) :
    ∃ moves, Shows (s.after x moves) (final s ask c orders) ∧ (s.after x moves).stopping = [] := by
  induction orders generalizing x c with
  | nil => exact ⟨[], shows_, nobody⟩
  | cons o rest ih =>
    obtain ⟨moves, shows', nobody'⟩ :=
      shows_order only shows_ nobody attended o (back _ List.mem_cons_self)
    obtain ⟨more, shows'', nobody''⟩ := ih shows' nobody' (attended.after s moves)
      fun e among => back e (List.mem_cons_of_mem _ among)
    exact ⟨moves ++ more, by rwa [after_append], by rwa [after_append]⟩

theorem shows_opening (supply : Supply) (model : Model) :
    Shows (.opening (opening supply model).world) (opening supply model) where
  sessions := rfl
  scheduler := rfl
  held _ _ found := by cases found
  underway _ _ found := by cases found
  signalled given := by cases given

end

/-! ## Nothing but the clock -/

/-- Nothing is done but that the clock is read, so and so often. -/
def OnlyClock (v w : Sessions (Workplace Model)) : Prop :=
  ∃ instantsDrawn, w = { v with world := { v.world with
    desk := { v.world.desk with supply := { v.world.desk.supply with instantsDrawn } } } }

section

variable {s : Service} {ask : Asking Model} {v : Sessions (Workplace Model)} {c : Course Model}

theorem OnlyClock.refl (v : Sessions (Workplace Model)) : OnlyClock v v :=
  ⟨v.world.desk.supply.instantsDrawn, rfl⟩

theorem OnlyClock.read {w : Sessions (Workplace Model)} (only : OnlyClock v w) (s : Service)
    (ask : Asking Model) : OnlyClock v ((s.surroundings ask).clock w).world := by
  obtain ⟨n, rfl⟩ := only
  exact ⟨n + 1, rfl⟩

/-- Everything was shut down, and nothing has been done since but that the clock was read. -/
structure Rests (v : Sessions (Workplace Model)) (c : Course Model) : Prop where
  shutDown : c.scheduler.shutDown = true
  world : OnlyClock v c.world

theorem Rests.move (rests : Rests v c) (m : Scheduler.Move Job) :
    Rests v { c with scheduler := m.next c.scheduler } :=
  ⟨m.next_shutDown rests.shutDown, rests.world⟩

theorem Rests.read (rests : Rests v c) (m : Scheduler.Move Job) :
    Rests v { c with
      scheduler := m.next c.scheduler, world := ((s.surroundings ask).clock c.world).world } :=
  ⟨m.next_shutDown rests.shutDown, rests.world.read s ask⟩

theorem Rests.conclude (rests : Rests v c) (s : Service) (ask : Asking Model) (n : Nat) :
    Rests v (Timeline.conclude (s.surroundings ask) n c).world := by
  have ends (result : Except Failure String) : Rests v { c with
      scheduler := (Scheduler.Move.endRun n ((s.surroundings ask).clock c.world).result
        result).next c.scheduler
      world := ((s.surroundings ask).clock c.world).world } := rests.read _
  rw [Timeline.conclude_world]
  split
  · split
    · exact rests
    · split
      · exact ends _
      · exact rests.move _
      · split
        · exact ends _
        · exact rests.move _
  · split
    · exact ends _
    · exact rests
  · exact rests

/-- A run that begins is given up before the model is asked. -/
theorem Rests.begin (rests : Rests v c) (s : Service) (ask : Asking Model) (n : Nat) :
    Rests v (Timeline.begin (s.surroundings ask) n c).world := by
  by_cases isDue : ∃ l time, c.scheduler.loops[n]? = some l ∧ l.dueAfter? c.now = some time
  case neg =>
    rw [Timeline.begin_of_undue]
    · exact rests
    · intro l found
      by_contra some
      obtain ⟨time, some⟩ := Option.ne_none_iff_exists'.mp some
      exact isDue ⟨l, time, found, some⟩
  case pos =>
    obtain ⟨l, time, found, due⟩ := isDue
    obtain ⟨-, world⟩ := answer_of_shutDown s ask rests.shutDown n l.activity
    have asked : Rests v (Timeline.askedFor (s.surroundings ask) n l.activity c) := rests.read _
    rw [begin_answered found due, world]
    refine ⟨?_, asked.world⟩
    rw [shutDown_answered, asked.shutDown, Bool.or_true]

/-- **From the beginning of a stop on nothing happens** but that the clock is read. -/
theorem lasting_rests (s : Service) (ask : Asking Model) (v : Sessions (Workplace Model)) :
    Timeline.Lasting (s.surroundings ask) (Rests v) (Rests v) := by
  refine .of_turn (fun n c rests => ?_) fun _ _ _ rests => ⟨rests.shutDown, rests.world⟩
  have begun := ((rests.conclude s ask n).move (.leave n)).begin s ask n
  have ended := (begun.conclude s ask n).move (.leave n)
  exact ⟨ended.shutDown, ended.world⟩

theorem rests_stop (s : Service) (ask : Asking Model) (patience : Nat) (c : Course Model) :
    Rests c.world (Timeline.stop (s.surroundings ask) patience c).world := by
  rw [(Timeline.stop_eq (s.surroundings ask) patience c).2]
  exact (lasting_rests s ask c.world).waitFor _ patience ⟨rfl, .refl c.world⟩

/-! ## After a stop -/

/-- No loop is alive in a course, and the ways to other servers are closed. -/
structure Over (c : Course Model) : Prop where
  dead : Scheduler.Dead c.scheduler
  queries : c.world.world.desk.queriesOpen = false
  disposals : c.world.world.desk.disposalsOpen = false

theorem lasting_dead (s : Service) (ask : Asking Model) (dead : Scheduler.Dead c.scheduler) :
    Timeline.Lasting (s.surroundings ask)
      (fun d => d.scheduler = c.scheduler ∧ d.world = c.world)
      (fun d => d.scheduler = c.scheduler ∧ d.world = c.world) := by
  refine .of_turn (fun n d same => ?_) fun _ _ _ same => same
  have dead' : Scheduler.Dead d.scheduler := same.1 ▸ dead
  obtain ⟨scheduler, world⟩ := Timeline.turn_of_dead (s.surroundings ask) dead' n
  exact ⟨scheduler.trans same.1, world.trans same.2⟩

/-- Another stop comes back at once and changes nothing. -/
theorem Over.stop (past : Over c) (s : Service) (ask : Asking Model) (patience : Nat) :
    (s.stop ask patience c).result = true ∧ (s.stop ask patience c).world = c := by
  obtain ⟨result, world, -⟩ := stop_eq s ask patience c
  obtain ⟨result', world'⟩ := Timeline.stop_eq (s.surroundings ask) patience c
  have still : ({ c with scheduler := Scheduler.Move.beginStop.next c.scheduler } : Course Model) =
      c := congrArg (fun scheduler => { c with scheduler }) (past.dead.next _)
  have nobody : c.scheduler.handles.values.all c.scheduler.isOver = true := by
    rw [past.dead.handles]
    rfl
  rw [still] at result' world'
  obtain ⟨back, same⟩ := Timeline.waitFor_of_done (s.surroundings ask)
    (fun s => c.scheduler.handles.values.all s.isOver) patience nobody
  rw [result', back] at result world
  rw [world', same, if_pos rfl] at world
  have closed : (onDesk Desk.close c).world = c := by
    obtain ⟨now, scheduler, waits, histories, ⟨store, queries, disposals, supply, requests⟩, model,
      signalled⟩ := c
    obtain ⟨-, rfl, rfl⟩ := past
    rfl
  exact ⟨result, world.trans closed⟩

/-- **Nothing that is ordered after a stop reaches a loop**, and no model is asked. -/
theorem Over.perform (past : Over c) (s : Service) (ask : Asking Model) (o : Order) :
    (o.perform s ask c).world.scheduler = c.scheduler ∧
      (o.perform s ask c).world.world =
        { c.world with world := o.onWorkplace c.world.world } := by
  have lasting := lasting_dead s ask past.dead
  have same : c.scheduler = c.scheduler ∧ c.world = c.world := ⟨rfl, rfl⟩
  cases o with
  | start => exact ⟨past.dead.next (.start s.activities), rfl⟩
  | startThese activities => exact ⟨past.dead.next (.start activities), rfl⟩
  | stopActivity patience name =>
    have stops := Timeline.stopActivity_eq (s.surroundings ask) patience name c
    rw [past.dead.handles] at stops
    have world : ((Order.stopActivity patience name).perform s ask c).world = c := stops.2
    rw [world]
    exact ⟨rfl, rfl⟩
  | stop patience =>
    have world : ((Order.stop patience).perform s ask c).world = c :=
      (past.stop s ask patience).2
    rw [world]
    exact ⟨rfl, rfl⟩
  | signal =>
    rw [Order.perform_signal]
    exact ⟨past.dead.next .shutdown, rfl⟩
  | work act keeps => exact ⟨rfl, rfl⟩
  | settle => exact lasting.settle c same
  | pass milliseconds =>
    rw [Order.perform_pass]
    split_ifs
    · exact same
    · exact lasting.waitFor (fun _ => false) milliseconds same

theorem Order.keepsWays (o : Order) :
    KeepsWays (o.onWorkplace : Workplace Model → Workplace Model) := by
  intro w
  cases o with
  | work act keeps => exact keeps w.desk
  | _ => exact ⟨rfl, rfl⟩

theorem Over.orders (past : Over c) (s : Service) (ask : Asking Model) (later : List Order) :
    Over (final s ask c later) ∧ (final s ask c later).scheduler = c.scheduler ∧
      (final s ask c later).world =
        { c.world with world := later.foldl (fun w o => o.onWorkplace w) c.world.world } := by
  induction later generalizing c with
  | nil => exact ⟨past, rfl, rfl⟩
  | cons o rest ih =>
    obtain ⟨scheduler, world⟩ := past.perform s ask o
    obtain ⟨queries, disposals⟩ := o.keepsWays c.world.world
    have past' : Over (o.perform s ask c).world := by
      refine ⟨scheduler ▸ past.dead, ?_, ?_⟩
      · rw [world]
        exact queries.trans past.queries
      · rw [world]
        exact disposals.trans past.disposals
    obtain ⟨past'', scheduler', world'⟩ := ih past'
    refine ⟨past'', scheduler'.trans scheduler, world'.trans ?_⟩
    rw [world]
    rfl

end

/-! ## Whoever is alive -/

section

variable {c : Course Model}

theorem swift_surroundings (s : Service) (ask : Asking Model) : Swift (s.surroundings ask) :=
  fun _ _ _ _ => rfl

/-- Whatever is ordered, each loop that is alive has still to begin or waits for something. -/
theorem attentive_order (here : Timeline.Attentive [] c) (s : Service) (ask : Asking Model)
    (o : Order) : Timeline.Attentive [] (o.perform s ask c).world := by
  have lasting := Timeline.lasting_attentive (swift_surroundings s ask)
  cases o with
  | start => exact here.call (m := .start s.activities) rfl
  | startThese activities => exact here.call (m := .start activities) rfl
  | stopActivity patience name =>
    have stops := Timeline.stopActivity_eq (s.surroundings ask) patience name c
    show Timeline.Attentive [] (Timeline.stopActivity (s.surroundings ask) patience name c).world
    cases handle : c.scheduler.handles.get? name with
    | none =>
      rw [handle] at stops
      rw [stops.2]
      exact here
    | some n =>
      rw [handle] at stops
      rw [stops.2]
      exact lasting.waitFor _ patience (here.call (m := .beginStopActivity name) rfl)
  | stop patience =>
    have waited : Timeline.Attentive [] (Timeline.stop (s.surroundings ask) patience c).world := by
      rw [(Timeline.stop_eq (s.surroundings ask) patience c).2]
      exact lasting.waitFor _ patience (here.call (m := .beginStop) rfl)
    show Timeline.Attentive [] (s.stop ask patience c).world
    rw [(stop_eq s ask patience c).2.1]
    split
    · exact ⟨waited.held, waited.awake⟩
    · exact waited
  | signal =>
    have shut := here.call (m := .shutdown) rfl
    rw [Order.perform_signal]
    exact ⟨shut.held, shut.awake⟩
  | work act keeps => exact ⟨here.held, here.awake⟩
  | settle => exact lasting.settle c here
  | pass milliseconds =>
    rw [Order.perform_pass]
    split
    · exact here
    · exact lasting.waitFor (fun _ => false) milliseconds here

theorem attentive_opening (supply : Supply) (model : Model) :
    Timeline.Attentive [] (opening supply model) := by
  constructor
  · intro n l due job found
    cases found
  · intro n l found
    cases found

/-- **A stop that is ordered comes back**, with any patience. -/
theorem stop_comesBack (s : Service) (ask : Asking Model) (supply : Supply) (model : Model)
    (orders : List Order) (patience : Nat) :
    (s.stop ask patience (final s ask (opening supply model) orders)).result = true := by
  have here : Timeline.Attentive [] (final s ask (opening supply model) orders) :=
    Trace.keeps_final (P := Timeline.Attentive []) (fun c o here => attentive_order here s ask o)
      (attentive_opening supply model) orders
  rw [(stop_eq s ask patience _).1]
  exact Timeline.stop_returns (swift_surroundings s ask) here patience

end

/-! ## The laws of a stop -/

/-- The laws of a service that stops at a course, with some patience. -/
structure ShutdownLaws (s : Service) (ask : Asking Model) (c : Course Model) (patience : Nat) :
    Prop where
  /-- The stop comes back. -/
  comesBack : (s.stop ask patience c).result = true
  /-- A scene shows the course, and the stop is one of that scene, for which the laws of stops
  hold; every run in flight is interrupted in it. -/
  shown : ∃ sessions past moves, let x := s.after (.opening sessions) past
    Shows x c ∧ Stops s x moves ∧ StopLaws s x moves ∧
      Shows (s.stopped x moves) (s.stop ask patience c).world ∧
      ∀ n f, x.flight? n = some f → Interrupted s (s.stopping x) moves n
  /-- While it waits nothing happens but that the clock is read, and the ways to other servers
  are closed when no loop is alive, and not before. -/
  inOrder : let waited := (Timeline.stop (s.surroundings ask) patience c).world
    OnlyClock c.world waited.world ∧ Scheduler.Dead waited.scheduler ∧
      (s.stop ask patience c).world = (onDesk Desk.close waited).world
  /-- What is reported while it waits comes first, and then that the service has stopped. -/
  reported : (s.stop ask patience c).events =
    (Timeline.stop (s.surroundings ask) patience c).events ++ [.serviceStopped]
  /-- When it has come back, no loop is alive, and no run is in flight. -/
  finished : (∀ l ∈ (s.stop ask patience c).world.scheduler.loops, l.isOver = true) ∧
    ∀ n, (s.stop ask patience c).world.scheduler.job? n = none
  /-- All histories are as they were. -/
  histories : (s.stop ask patience c).world.world.histories = c.world.histories
  /-- Whatever is ordered later, a query that can be resolved is refused. -/
  queries : ∀ later args sql, s.query.resolveArguments args = .ok sql →
    Refuses s.query.tool args (final s ask (s.stop ask patience c).world later).world.world.desk
      "query_data is closed"
  /-- Whatever is ordered later, a disposal that can be resolved is refused. -/
  disposals : ∀ later args prepared, s.disposal.prepareArguments args = .ok prepared →
    Refuses s.disposal.tool args (final s ask (s.stop ask patience c).world later).world.world.desk
      "sheikah_api is closed"
  /-- Nothing that is ordered later starts a loop or begins a run, and nothing is done at the
  workplace but what is ordered there. -/
  noMore : ∀ later, let stopped := (s.stop ask patience c).world
    (final s ask stopped later).scheduler = stopped.scheduler ∧
      (final s ask stopped later).world = { stopped.world with
        world := later.foldl (fun w o => o.onWorkplace w) stopped.world.world }
  /-- Another stop comes back and changes nothing. -/
  again : ∀ later limit, let c' := final s ask (s.stop ask patience c).world later
    (s.stop ask limit c').result = true ∧ (s.stop ask limit c').world = c'

/-- In a service whose activity runs once in a hundred hours a run has begun; the model has called
a tool in it, and the tool has done its work. -/
def underway : List (Move Bool) :=
  [.start [⟨"watch", "100h", .auto, true⟩], .beginRun 0 0 ⟨0, 0⟩, .hear 0 (.ok overbearingCall),
    .handOver 0]

/-- The run is interrupted before what came of the call is observed. -/
def interruption : List (Move Bool) := [.interrupt 0, .endRun 0 ⟨0, 1⟩, .leave 0]

/-- A workplace at which nothing has been done. -/
def quiet : Course Bool := opening (.still ⟨0, 0⟩ 7) true

/-- A model that calls a tool as long as it is willing to, which is once, and is silent else. -/
def waning : Asking Bool := fun _ => do
  let willing := (← Act.look).model
  Act.change fun w => { w with model := false }
  return if willing then some (.ok overbearingCall) else none

/-- The activity is started, and a run begins in which the model falls silent. -/
def silenced : List Order := [.startThese [⟨"watch", "100h", .auto, true⟩], .settle]

end TriageDesk.Service
