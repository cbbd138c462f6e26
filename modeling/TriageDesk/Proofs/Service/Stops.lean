/-
TriageDesk.Proofs.Service.Stops — a stop in a scene.

A stop takes all handles, and comes back when the loops behind them are over;
then the ways to other servers are closed. `stop_laws` says what holds of every
stop during which nobody else stops anything, wherever it hits the runs in
flight: one may wait for the model or for a tool, or be between two waits, and a
loop may still begin a run that is due after it was told to end.

The order of the two closings rests on `Attended`: at the beginning of such a
stop every loop that is alive has a handle, so the stop waits for all of them
(`dead_of_returns`). What was interrupted is `Spent` until its run ends, and a
run that begins after the beginning of the stop is so from its first moment:
so a session whose runs were interrupted keeps its history (`history_after`).
-/
import TriageDesk.Proofs.Service.Course

namespace TriageDesk.Service

open Activity Agent Time

variable {Model : Type}

/-! ## Runs that are given up -/

/-- Nothing is in flight in a loop, or only what was given up. -/
def Calm (x : Scene Model) (n : Nat) : Prop := ∀ f, x.flight? n = some f → f.Spent

/-- What begins after everything was shut down is given up at once. -/
theorem spent_flight (s : Service) {x : Scene Model} (down : x.scheduler.shutDown = true)
    (a : Activity) : (s.flight x a).Spent := by
  unfold flight
  rw [down]
  exact Flight.spent_interrupt (f := ⟨_, none⟩) rfl

/-- What was given up goes on to nothing but the end of its run. -/
theorem Flight.Spent.goes {s : Service} {x : Scene Model} {n : Nat} {f : Flight} (spent : f.Spent)
    {m : Move Model} {after : Option Flight} (goes : Goes s x n (some f) m after) :
    after = some f ∨ (∃ moment, m = .endRun n moment) ∧ after = none := by
  cases goes with
  | stays => exact Or.inl rfl
  | hears _ reply => exact Or.inl (congrArg some (Flight.hear_of_ended spent.isEnded reply))
  | observes => exact Or.inl (congrArg some (Flight.observe_of_ended spent.isEnded _))
  | handsOver pending =>
    rw [Flight.call?_of_ended spent.isEnded] at pending
    cases pending
  | isInterrupted => exact Or.inl (congrArg some (Flight.interrupt_of_ended spent.isEnded))
  | ends moment => exact Or.inr ⟨⟨moment, rfl⟩, rfl⟩
  | aborts underway =>
    rw [spent.isEnded] at underway
    cases underway

theorem Calm.next {x : Scene Model} {n : Nat} (calm : Calm x n)
    (down : x.scheduler.shutDown = true) (s : Service) (m : Move Model) :
    Calm (m.next s x) n := by
  intro g found
  have goes := s.flight?_next m x n
  rw [found] at goes
  cases had : x.flight? n with
  | none =>
    rw [had] at goes
    cases goes with
    | begins => exact s.spent_flight down _
  | some f =>
    rw [had] at goes
    rcases (calm f had).goes goes with same | ⟨_, gone⟩
    · cases same
      exact calm _ had
    · cases gone

/-- A run is interrupted in the course of some moves: while it waits for the model or for the end
of a call, or is between two waits. -/
def Interrupted (s : Service) (x : Scene Model) (moves : List (Move Model)) (n : Nat) : Prop :=
  ∃ first last f, moves = first ++ .interrupt n :: last ∧
    (s.after x first).flight? n = some f ∧ f.run.isEnded = false

/-- What an interruption makes of the run in flight. -/
theorem flight?_interrupt (s : Service) {x : Scene Model} (down : x.scheduler.shutDown = true)
    {n : Nat} {f : Flight} (found : x.flight? n = some f) :
    (Move.next s (.interrupt n) x).flight? n = some f.interrupt := by
  rw [Scene.flight?, scheduler_of_move (onScheduler_interrupt down found), Scheduler.job?_proceed]
  have job : x.scheduler.job? n = some f := found
  rw [job]
  rfl

/-- What the end of a run leaves in flight. -/
theorem flight?_endRun (s : Service) {x : Scene Model} {n : Nat} {f : Flight}
    (found : x.flight? n = some f) (ended : f.run.isEnded = true) (moment : Instant) :
    (Move.next s (.endRun n moment) x).flight? n = none := by
  have same : Move.onScheduler s x (.endRun n moment) =
      some (.endRun n moment (Engine.result f.run)) := by
    simp [Move.onScheduler, found, ended]
  rw [Scene.flight?, scheduler_of_move same]
  exact Scheduler.job?_endRun _ _ _ _

theorem shutDown_after (s : Service) {x : Scene Model} (down : x.scheduler.shutDown = true)
    (moves : List (Move Model)) : (s.after x moves).scheduler.shutDown = true :=
  s.after_induction (P := fun x => x.scheduler.shutDown = true)
    (fun _ m down => s.shutDown_next m down) down moves

theorem Calm.after {x : Scene Model} {n : Nat} (calm : Calm x n)
    (down : x.scheduler.shutDown = true) (s : Service) (moves : List (Move Model)) :
    Calm (s.after x moves) n :=
  (s.after_induction (P := fun x => x.scheduler.shutDown = true ∧ Calm x n)
    (fun _ m h => ⟨s.shutDown_next m h.1, h.2.next h.1 s m⟩) ⟨down, calm⟩ moves).2

/-- What was given up, and is in flight no more, has ended as cancelled, and its end left all
sessions as they were. -/
theorem Flight.Spent.ended (s : Service) {n : Nat} {f : Flight} (spent : f.Spent)
    {x : Scene Model} (found : x.flight? n = some f) {moves : List (Move Model)}
    (gone : (s.after x moves).flight? n = none) :
    ∃ first moment last, moves = first ++ .endRun n moment :: last ∧
      (s.after x first).flight? n = some f ∧
      ((Move.endRun n moment).next s (s.after x first)).sessions = (s.after x first).sessions := by
  induction moves generalizing x with
  | nil =>
    rw [show s.after x [] = x from rfl, found] at gone
    cases gone
  | cons m rest ih =>
    have goes := s.flight?_next m x n
    rw [found] at goes
    rcases spent.goes goes with still | ⟨⟨moment, rfl⟩, _⟩
    · obtain ⟨first, moment, last, rfl, inFlight, same⟩ := ih still gone
      exact ⟨m :: first, moment, last, rfl, inFlight, same⟩
    · refine ⟨[], moment, rest, rfl, found, ?_⟩
      have forgotten : Run.isRemembered (Engine.result f.run) = false := by
        unfold Flight.Spent at spent
        simp [Engine.result, spent, Run.isRemembered]
      show Move.onSessions s x (.endRun n moment) = x.sessions
      simp [Move.onSessions, found, Engine.remember, forgotten]

/-! ## What is remembered -/

/-- A move leaves the history of a session as it was, unless it ends a run of it that was not
given up. -/
theorem history_next (s : Service) {x : Scene Model} (addressed : Addressed x) {session : String}
    {m : Move Model}
    (spent : ∀ n l moment f, x.scheduler.loops[n]? = some l → l.activity.name = session →
      m = .endRun n moment → x.flight? n = some f → f.run.isEnded = true → f.Spent) :
    Engine.history (m.next s x).sessions channel session =
      Engine.history x.sessions channel session := by
  unfold Engine.history
  rcases s.histories_next m x with same | ⟨n, moment, f, messages, rfl, found, remembered, changed⟩
  · rw [same]
  · obtain ⟨l, hl⟩ := exists_loop_of_flight found
    have other : Engine.sessionKey channel session ≠ f.run.session := by
      intro same
      rw [addressed n l f hl found, Engine.sessionKey_inj] at same
      cases ended : f.run.isEnded with
      | true =>
        have givenUp := spent n l moment f hl same.symm rfl found ended
        unfold Flight.Spent at givenUp
        simp [Engine.result, givenUp, Run.isRemembered] at remembered
      | false =>
        unfold Run.isEnded at ended
        unfold Engine.result at remembered
        cases phase : f.run.phase <;> simp [phase, Run.isRemembered] at ended remembered
    rw [changed, Table.get?_insert, if_neg other]

/-- **The history of a session** whose runs are all given up stays as it is. -/
theorem history_after (s : Service) {x : Scene Model} (down : x.scheduler.shutDown = true)
    (addressed : Addressed x) {session : String} {moves : List (Move Model)}
    (givenUp : ∀ n l, x.scheduler.loops[n]? = some l → l.activity.name = session →
      Calm x n ∨ Interrupted s x moves n) :
    Engine.history (s.after x moves).sessions channel session =
      Engine.history x.sessions channel session := by
  induction moves generalizing x with
  | nil => rfl
  | cons m rest ih =>
    have down' := s.shutDown_next m down
    rw [after_cons, ih down' (addressed.next s m), s.history_next addressed]
    · intro n l moment f found name ends hf ended
      subst ends
      rcases givenUp n l found name with calm | ⟨first, last, g, split, hg, underway⟩
      · exact calm f hf
      · -- a run that is interrupted later would have begun after this one, and be given up at once
        cases first with
        | nil => cases split
        | cons head first =>
          cases split
          have calm : Calm ((Move.endRun n moment).next s x) n := by
            intro h hh
            rw [s.flight?_endRun hf ended] at hh
            cases hh
          rw [(calm.after down' s first g hg).isEnded] at underway
          cases underway
    · intro n l' found' name
      obtain ⟨l, found, activity⟩ := s.loop_of_next m down found'
      rw [activity] at name
      rcases givenUp n l found name with calm | ⟨first, last, f, split, inFlight, underway⟩
      · exact Or.inl (calm.next down s m)
      · cases first with
        | nil =>
          cases split
          left
          intro g hg
          rw [s.flight?_interrupt down inFlight] at hg
          cases hg
          exact Flight.spent_interrupt underway
        | cons head first =>
          cases split
          exact Or.inr ⟨first, last, f, rfl, inFlight, underway⟩

/-! ## One stop -/

/-- The scene at which a stop has begun. -/
def stopping (s : Service) (x : Scene Model) : Scene Model := Move.beginStop.next s x

/-- The scene at which the stop comes back, after some moves. -/
def stopped (s : Service) (x : Scene Model) (moves : List (Move Model)) : Scene Model :=
  (Move.endStop x.scheduler.handles.values).next s (s.after (s.stopping x) moves)

/-- A stop that begins at a scene and comes back after some moves, while nobody else stops
anything. -/
structure Stops (s : Service) (x : Scene Model) (moves : List (Move Model)) : Prop where
  nobody : x.stopping = []
  alone : ∀ m ∈ moves, m ≠ .beginStop
  returns : (s.after (s.stopping x) moves).returns (.everything x.scheduler.handles.values) = true

/-- Everything is being stopped, by one who waits for some loops: no activity has a handle. -/
structure Closing (taken : List Nat) (x : Scene Model) : Prop where
  shutDown : x.scheduler.shutDown = true
  handles : x.scheduler.handles = ∅
  waits : x.stopping = [.everything taken] ∨ x.stopping = []

theorem closing_stopping (s : Service) {x : Scene Model} (nobody : x.stopping = []) :
    Closing x.scheduler.handles.values (s.stopping x) where
  shutDown := rfl
  handles := rfl
  waits := by
    show Stopping.everything x.scheduler.handles.values :: x.stopping = _ ∨ _
    rw [nobody]
    exact Or.inl rfl

/-- The one who waits goes on waiting, or comes back. -/
theorem Closing.stopping_next {taken : List Nat} {x : Scene Model} (closing : Closing taken x)
    (waits : x.stopping = [.everything taken]) {m : Move Model} (other : m ≠ .beginStop) :
    m.onStopping x = [.everything taken] ∨ (m = .endStop taken ∧ m.onStopping x = []) := by
  cases m with
  | beginStop => exact absurd rfl other
  | beginStopActivity name =>
    rw [Move.onStopping, closing.handles]
    exact Or.inl waits
  | endStopActivity n =>
    have absent : x.returns (.activity n) = false := by simp [Scene.returns, waits]
    simp [Move.onStopping, absent, waits]
  | endStop those =>
    by_cases same : those = taken
    · subst same
      cases returns : x.returns (.everything those) with
      | false => simp [Move.onStopping, returns, waits]
      | true => simp [Move.onStopping, returns, waits]
    · have absent : x.returns (.everything those) = false := by simp [Scene.returns, waits, same]
      simp [Move.onStopping, absent, waits]
  | _ => exact Or.inl waits

theorem Closing.stopping_next_nil {taken : List Nat} {x : Scene Model} (closing : Closing taken x)
    (nobody : x.stopping = []) {m : Move Model} (other : m ≠ .beginStop) :
    m.onStopping x = [] := by
  cases m with
  | beginStop => exact absurd rfl other
  | beginStopActivity name =>
    rw [Move.onStopping, closing.handles]
    exact nobody
  | endStopActivity | endStop => simp [Move.onStopping, nobody]
  | _ => exact nobody

theorem Closing.next {taken : List Nat} {x : Scene Model} (closing : Closing taken x) (s : Service)
    {m : Move Model} (other : m ≠ .beginStop) : Closing taken (m.next s x) := by
  constructor
  · exact s.shutDown_next m closing.shutDown
  · rcases s.scheduler_next m x with same | ⟨k, _, same⟩
    · rw [same, closing.handles]
    · rw [same, k.next_handles closing.shutDown closing.handles]
  · rcases closing.waits with waits | waits
    · rcases closing.stopping_next waits other with still | ⟨_, gone⟩
      · exact Or.inl still
      · exact Or.inr gone
    · exact Or.inr (closing.stopping_next_nil waits other)

theorem Closing.after {taken : List Nat} {x : Scene Model} (closing : Closing taken x) (s : Service)
    {moves : List (Move Model)} (alone : ∀ m ∈ moves, m ≠ .beginStop) :
    Closing taken (s.after x moves) := by
  induction moves generalizing x with
  | nil => exact closing
  | cons m rest ih =>
    exact ih (closing.next s (alone m List.mem_cons_self))
      fun m' h => alone m' (List.mem_cons_of_mem _ h)

theorem Attended.after {x : Scene Model} (attended : Attended x) (s : Service)
    (moves : List (Move Model)) : Attended (s.after x moves) :=
  s.after_induction (fun _ m h => h.next s m) attended moves

theorem Closing.nobody_after {taken : List Nat} {x : Scene Model} (closing : Closing taken x)
    (s : Service) (nobody : x.stopping = []) {moves : List (Move Model)}
    (alone : ∀ m ∈ moves, m ≠ .beginStop) : (s.after x moves).stopping = [] := by
  induction moves generalizing x with
  | nil => exact nobody
  | cons m rest ih =>
    have other : m ≠ .beginStop := alone m List.mem_cons_self
    exact ih (closing.next s other) (closing.stopping_next_nil nobody other)
      fun m' h => alone m' (List.mem_cons_of_mem _ h)

/-- The ways to other servers stay as they are while a stop waits. -/
theorem Closing.ways_after {taken : List Nat} {x : Scene Model} (closing : Closing taken x)
    (s : Service) {first last : List (Move Model)}
    (alone : ∀ m ∈ first ++ last, m ≠ .beginStop)
    (pending : (s.after x (first ++ last)).stopping ≠ []) :
    (s.after x first).ways = x.ways := by
  induction first generalizing x with
  | nil => rfl
  | cons m rest ih =>
    have other : m ≠ .beginStop := alone m List.mem_cons_self
    have alone' : ∀ m ∈ rest ++ last, m ≠ .beginStop :=
      fun m' h => alone m' (List.mem_cons_of_mem _ h)
    have closing' := closing.next s other
    rw [after_cons, ih closing' alone' pending]
    refine s.ways_next fun those ends => ?_
    cases returns : x.returns (.everything those) with
    | false => rfl
    | true =>
      -- the one who waits would have come back already
      have gone : (m.next s x).stopping = [] := by
        subst ends
        rw [s.endStop_of_returns returns]
        simp only [Scene.returns, Bool.and_eq_true, decide_eq_true_eq] at returns
        rcases closing.waits with waits | nobody
        · rw [waits, List.mem_singleton] at returns
          rw [waits, returns.1]
          simp
        · rw [nobody]
          rfl
      exact absurd (closing'.nobody_after s gone alone') pending

/-- **A stop waits for all loops.** When it can come back, none of them is alive. -/
theorem dead_of_returns {s : Service} {x : Scene Model} (attended : Attended x)
    {moves : List (Move Model)} (stops : Stops s x moves) :
    Scheduler.Dead (s.after (s.stopping x) moves).scheduler := by
  have closing := (s.closing_stopping stops.nobody).after s stops.alone
  have watched : Attended (s.after (s.stopping x) moves) :=
    (attended.next s .beginStop).after s moves
  refine ⟨closing.shutDown, closing.handles, fun l hl => ?_⟩
  obtain ⟨n, found⟩ := List.mem_iff_getElem?.mp hl
  cases finished : l.isOver with
  | true => rfl
  | false =>
    rcases watched n l found finished with handle | mem
    · rw [closing.handles] at handle
      cases handle
    · obtain ⟨p, hp, hn⟩ := List.mem_flatMap.mp mem
      have returns := stops.returns
      simp only [Scene.returns, Bool.and_eq_true, List.all_eq_true, decide_eq_true_eq] at returns
      have one : p = .everything x.scheduler.handles.values := by
        rcases closing.waits with waits | nobody
        · rw [waits] at hp
          exact List.mem_singleton.mp hp
        · rw [nobody] at hp
          cases hp
      rw [one] at hn
      have ended := returns.2 n hn
      rw [Scheduler.isOver, found, Option.all_some, finished] at ended
      cases ended

/-! ## After a stop -/

/-- Nothing is alive in a scene, and the ways to other servers are closed. -/
structure Closed (x : Scene Model) : Prop where
  dead : Scheduler.Dead x.scheduler
  ways : x.ways = (false, false)

theorem closed_stopped {s : Service} {x : Scene Model} (attended : Attended x)
    {moves : List (Move Model)} (stops : Stops s x moves) : Closed (s.stopped x moves) := by
  unfold stopped
  rw [s.endStop_of_returns stops.returns]
  exact ⟨dead_of_returns attended stops, rfl⟩

/-- **A stop is final.** Nothing that happens afterwards changes the scheduler. -/
theorem Closed.next {x : Scene Model} (closed : Closed x) (s : Service) (m : Move Model) :
    Closed (m.next s x) ∧ (m.next s x).scheduler = x.scheduler := by
  have same : (m.next s x).scheduler = x.scheduler := by
    rcases s.scheduler_next m x with same | ⟨k, _, same⟩
    · exact same
    · rw [same, closed.dead.next k]
  exact ⟨⟨by rw [same]; exact closed.dead, s.ways_of_closed m closed.ways⟩, same⟩

theorem Closed.after {x : Scene Model} (closed : Closed x) (s : Service)
    (moves : List (Move Model)) :
    Closed (s.after x moves) ∧ (s.after x moves).scheduler = x.scheduler :=
  s.after_induction (P := fun y => Closed y ∧ y.scheduler = x.scheduler)
    (fun _ m h => ⟨(h.1.next s m).1, by rw [(h.1.next s m).2, h.2]⟩) ⟨closed, rfl⟩ moves

/-- Another stop comes back at once and changes nothing. -/
theorem Closed.stops_again {x : Scene Model} (closed : Closed x) (s : Service) :
    s.after x [.beginStop, .endStop []] = x := by
  have scheduler : (Move.beginStop.next s x).scheduler = x.scheduler :=
    (closed.next s .beginStop).2
  have taken : x.scheduler.handles.values = [] := by
    rw [closed.dead.handles]
    rfl
  have begun : Move.beginStop.next s x =
      { x with stopping := .everything [] :: x.stopping } := by
    have stopping : (Move.beginStop.next s x).stopping = .everything [] :: x.stopping := by
      rw [← taken]
      rfl
    cases h : Move.beginStop.next s x
    rw [h] at scheduler stopping
    cases scheduler
    cases stopping
    have sessions := congrArg Scene.sessions h
    cases sessions
    rfl
  show (Move.endStop []).next s (Move.beginStop.next s x) = x
  rw [begun, s.endStop_of_returns (by simp [Scene.returns, Stopping.loops])]
  have ways := closed.ways
  obtain ⟨scheduler, ⟨histories, ⟨desk, model, signalled⟩⟩, stopping⟩ := x
  obtain ⟨store, queries, disposals, supply, requests⟩ := desk
  obtain ⟨rfl, rfl⟩ := Prod.mk.inj ways
  simp [Desk.close]

/-! ## The laws of a stop -/

/-- A call of a tool of the desk is refused, with a text, and nothing is handed over for
sending. -/
def Refuses (t : Tool Desk) (args : Json) (d : Desk) (reason : String) : Prop :=
  (t.run args d).result = .returned 0 (.error reason) ∧ (t.run args d).world = d

/-- The laws of a stop that begins at a scene and comes back after some moves. -/
structure StopLaws (s : Service) (x : Scene Model) (moves : List (Move Model)) : Prop where
  /-- No loop is alive, and no run is in flight. -/
  finished : (∀ l ∈ (s.stopped x moves).scheduler.loops, l.isOver = true) ∧
    ∀ n, (s.stopped x moves).flight? n = none
  /-- A run that was interrupted ended as cancelled, and its end left all sessions as they
  were. -/
  cancelled : ∀ first n last f, moves = first ++ .interrupt n :: last →
    (s.after (s.stopping x) first).flight? n = some f → f.run.isEnded = false →
    ∃ more moment rest, last = more ++ .endRun n moment :: rest ∧
      let y := s.after (s.stopping x) (first ++ .interrupt n :: more)
      (∃ g, y.flight? n = some g ∧ Engine.result g.run = .error .cancelled) ∧
        ((Move.endRun n moment).next s y).sessions = y.sessions
  /-- A session whose runs in flight were all interrupted has the history that it had. -/
  history : ∀ session,
    (∀ n l f, x.scheduler.loops[n]? = some l → l.activity.name = session → x.flight? n = some f →
      Interrupted s (s.stopping x) moves n) →
    Engine.history (s.stopped x moves).sessions channel session =
      Engine.history x.sessions channel session
  /-- The ways to other servers are as they were until the loops are over and no run is in
  flight; then they are closed. -/
  inOrder : (∀ first, first <+: moves → (s.after (s.stopping x) first).ways = x.ways) ∧
    Scheduler.Dead (s.after (s.stopping x) moves).scheduler ∧
    (s.stopped x moves).ways = (false, false)
  /-- Whatever is done later, a query that can be resolved is refused. -/
  queries : ∀ later args sql, s.query.resolveArguments args = .ok sql →
    Refuses s.query.tool args (s.after (s.stopped x moves) later).desk "query_data is closed"
  /-- Whatever is done later, a disposal that can be resolved is refused. -/
  disposals : ∀ later args prepared, s.disposal.prepareArguments args = .ok prepared →
    Refuses s.disposal.tool args (s.after (s.stopped x moves) later).desk "sheikah_api is closed"
  /-- Nothing that is done later starts a loop or begins a run. -/
  final : ∀ later, (s.after (s.stopped x moves) later).scheduler = (s.stopped x moves).scheduler
  /-- Another stop changes nothing. -/
  again : ∀ later, s.after (s.after (s.stopped x moves) later) [.beginStop, .endStop []] =
    s.after (s.stopped x moves) later

theorem attended_opening (sessions : Sessions (Workplace Model)) :
    Attended (.opening sessions) := by
  intro n l found
  cases found

theorem addressed_opening (sessions : Sessions (Workplace Model)) :
    Addressed (.opening sessions) := by
  intro n l f found
  cases found

/-- The beginning of a stop leaves what is in flight alone. -/
theorem flight?_stopping (s : Service) (x : Scene Model) (n : Nat) :
    (s.stopping x).flight? n = x.flight? n :=
  Scheduler.job?_of_not_maker (m := .beginStop) nofun x.scheduler

/-- The loops at the beginning of a stop are those that there were. -/
theorem loop_of_stopping (s : Service) (x : Scene Model) {n : Nat} {l' : Loop Flight}
    (found' : (s.stopping x).scheduler.loops[n]? = some l') :
    ∃ l, x.scheduler.loops[n]? = some l ∧ l'.activity = l.activity := by
  cases found : x.scheduler.loops[n]? with
  | none =>
    obtain ⟨_, _, _, starts, _⟩ := Scheduler.Move.next_new .beginStop x.scheduler found' found
    cases starts
  | some l =>
    obtain ⟨k, hk, activity, _⟩ := s.loop_next .beginStop x found
    rw [show (Move.beginStop.next s x).scheduler.loops[n]? = some l' from found'] at hk
    cases hk
    exact ⟨l, rfl, activity⟩

/-- An interrupted run has ended as cancelled when the stop comes back. -/
theorem ended_of_interrupted {s : Service} {x : Scene Model} (attended : Attended x)
    {first last : List (Move Model)} {n : Nat} (stops : Stops s x (first ++ .interrupt n :: last))
    {f : Flight} (found : (s.after (s.stopping x) first).flight? n = some f)
    (underway : f.run.isEnded = false) :
    ∃ more moment rest, last = more ++ .endRun n moment :: rest ∧
      let y := s.after (s.stopping x) (first ++ .interrupt n :: more)
      (∃ g, y.flight? n = some g ∧ Engine.result g.run = .error .cancelled) ∧
        ((Move.endRun n moment).next s y).sessions = y.sessions := by
  have down : (s.after (s.stopping x) first).scheduler.shutDown = true := s.shutDown_after rfl first
  have interrupted := s.flight?_interrupt down found
  have spent := Flight.spent_interrupt underway
  have gone : (s.after ((Move.interrupt n).next s (s.after (s.stopping x) first)) last).flight? n =
      none := by
    rw [← after_cons, ← after_append]
    exact (dead_of_returns attended stops).job? n
  obtain ⟨more, moment, rest, rfl, inFlight, same⟩ := spent.ended s interrupted gone
  refine ⟨more, moment, rest, rfl, ?_⟩
  rw [← after_cons, ← after_append] at inFlight same
  refine ⟨⟨_, inFlight, ?_⟩, same⟩
  unfold Flight.Spent at spent
  simp [Engine.result, spent]

/-- A session whose runs were all interrupted has its history when the stop comes back. -/
theorem history_stopped {s : Service} {x : Scene Model} (addressed : Addressed x)
    {moves : List (Move Model)} (stops : Stops s x moves) {session : String}
    (interrupted : ∀ n l f, x.scheduler.loops[n]? = some l → l.activity.name = session →
      x.flight? n = some f → Interrupted s (s.stopping x) moves n) :
    Engine.history (s.stopped x moves).sessions channel session =
      Engine.history x.sessions channel session := by
  have givenUp : ∀ n l, (s.stopping x).scheduler.loops[n]? = some l → l.activity.name = session →
      Calm (s.stopping x) n ∨ Interrupted s (s.stopping x) moves n := by
    intro n l' found' name
    obtain ⟨l, found, activity⟩ := s.loop_of_stopping x found'
    rw [activity] at name
    cases had : x.flight? n with
    | none =>
      left
      intro f hf
      rw [s.flight?_stopping, had] at hf
      cases hf
    | some f => exact Or.inr (interrupted n l f found name had)
  have kept := s.history_after (x := s.stopping x) rfl (addressed.next s .beginStop) givenUp
  unfold stopped
  rw [s.endStop_of_returns stops.returns]
  exact kept

/-- **The laws of a stop.** Whatever has happened to a service, whatever happens while it is
stopped, as long as nobody else stops anything, and whatever happens later: the laws hold. -/
theorem stop_laws (s : Service) (sessions : Sessions (Workplace Model))
    (past moves : List (Move Model)) (stops : Stops s (s.after (.opening sessions) past) moves) :
    StopLaws s (s.after (.opening sessions) past) moves := by
  have attended := (attended_opening sessions).after s past
  have addressed : Addressed (s.after (.opening sessions) past) :=
    s.after_induction (fun _ m h => h.next s m) (addressed_opening sessions) past
  generalize s.after (.opening sessions) past = x at stops attended addressed
  have dead := dead_of_returns attended stops
  have closed := closed_stopped attended stops
  constructor
  case finished => exact ⟨closed.dead.finished, closed.dead.job?⟩
  case cancelled =>
    rintro first n last f rfl found underway
    exact ended_of_interrupted attended stops found underway
  case history => exact fun session => history_stopped addressed stops
  case inOrder =>
    refine ⟨?_, dead, closed.ways⟩
    rintro first ⟨last, rfl⟩
    have pending : (s.after (s.stopping x) (first ++ last)).stopping ≠ [] := by
      intro nobody
      have returns := stops.returns
      simp [Scene.returns, nobody] at returns
    rw [(s.closing_stopping stops.nobody).ways_after s stops.alone pending]
    refine s.ways_next fun taken other => ?_
    cases other
  case queries =>
    intro later args sql resolved
    have ways := (closed.after s later).1.ways
    exact s.query.run_closed resolved (congrArg Prod.fst ways)
  case disposals =>
    intro later args prepared resolved
    have ways := (closed.after s later).1.ways
    exact s.disposal.run_closed resolved (congrArg Prod.snd ways)
  case final => exact fun later => (closed.after s later).2
  case again => exact fun later => (closed.after s later).1.stops_again s

end TriageDesk.Service
