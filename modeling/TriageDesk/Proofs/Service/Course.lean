/-
TriageDesk.Proofs.Service.Course — a service at work, wait by wait.

In a `Scene` any number of runs are in flight, each in the middle of its
reasoning, and people may be waiting for the end of loops that they stop. A
`Move` is one thing that happens there: someone calls the service or comes
back from a call, a run hears from the model, hands a call over to a tool,
observes what came of it, is interrupted, or ends, and a loop goes. Whatever
else is done at the workplace is a move as well, as long as it keeps the ways
to other servers as they are.

Each move is made of what the service is made of: a move of the scheduler, the
steps of a run, the work of a tool, and what the engine remembers. Whenever
anything can be shut down, any other move may come in between.

* `flight?_next` — all that one move can do to the run in flight in a loop;
* `Attended.next` — who takes a handle waits for the loop;
* `ways_next` — only the return of a stop closes the ways to other servers;
* `histories_next` — only the end of a run changes what is remembered.
-/
import TriageDesk.Proofs.Activity.Course
import TriageDesk.Proofs.Service.Filings

namespace TriageDesk.Service

open Activity Agent Time

variable {Model : Type}

/-! ## Runs in flight -/

/-- What is in flight during a run: a piece of reasoning, and what its call has come to, once
the tool has done its work. -/
structure Flight where
  run : Run
  outcome : Option Tool.Outcome

namespace Flight

/-- The call for which a tool has still to do its work. -/
def call? (f : Flight) : Option Agent.Call :=
  match f.run.phase, f.outcome with
  | .performing c _, none => some c
  | _, _ => none

/-- After a reply of the model, if it is awaited. -/
def hear (f : Flight) (reply : Except String String) : Flight :=
  match f.run.phase with
  | .asking => ⟨(f.run.hear reply).1, none⟩
  | _ => f

/-- After the outcome of a call, if there is one, where a call has a limit of time. -/
def observe (f : Flight) (limit : Nat) : Flight :=
  match f.run.phase, f.outcome with
  | .performing c output, some outcome =>
    ⟨(f.run.observe c output (Executor.result limit c.tool outcome)).1, none⟩
  | _, _ => f

/-- After its wait was given up. -/
def interrupt (f : Flight) : Flight := { f with run := f.run.cancel }

/-- Whether it has come to nothing: it was given up. -/
def Spent (f : Flight) : Prop := f.run.phase = .ended (.error .cancelled)

theorem hear_of_ended {f : Flight} (ended : f.run.isEnded = true) (reply : Except String String) :
    f.hear reply = f := by
  unfold Run.isEnded at ended
  unfold hear
  cases phase : f.run.phase <;> simp [phase] at ended ⊢

theorem observe_of_ended {f : Flight} (ended : f.run.isEnded = true) (limit : Nat) :
    f.observe limit = f := by
  unfold Run.isEnded at ended
  unfold observe
  cases phase : f.run.phase <;> simp [phase] at ended ⊢

theorem call?_of_ended {f : Flight} (ended : f.run.isEnded = true) : f.call? = none := by
  unfold Run.isEnded at ended
  unfold call?
  cases phase : f.run.phase <;> simp [phase] at ended ⊢

theorem interrupt_of_ended {f : Flight} (ended : f.run.isEnded = true) : f.interrupt = f := by
  unfold Run.isEnded at ended
  unfold interrupt Run.cancel
  cases phase : f.run.phase <;> simp [phase] at ended ⊢

theorem Spent.isEnded {f : Flight} (spent : f.Spent) : f.run.isEnded = true := by
  unfold Spent at spent
  simp [Run.isEnded, spent]

/-- Giving a wait up leaves nothing but that. -/
theorem spent_interrupt {f : Flight} (underway : f.run.isEnded = false) : f.interrupt.Spent := by
  unfold Run.isEnded at underway
  unfold Spent interrupt Run.cancel
  cases phase : f.run.phase <;> simp [phase] at underway ⊢

theorem session_hear (f : Flight) (reply : Except String String) :
    (f.hear reply).run.session = f.run.session := by
  unfold hear
  cases phase : f.run.phase with
  | asking => exact (Run.step_hear phase reply).session_eq
  | performing | ended => rfl

theorem session_observe (f : Flight) (limit : Nat) :
    (f.observe limit).run.session = f.run.session := by
  unfold observe
  split
  · rename_i phase _
    exact (Run.step_observe phase _ _).session_eq
  · rfl

theorem session_cancel (r : Run) : r.cancel.session = r.session := by
  unfold Run.cancel
  split <;> rfl

end Flight

/-! ## Scenes -/

/-- Someone who stops something, and has not come back yet. -/
inductive Stopping
  /-- They wait for one loop. -/
  | activity (n : Nat)
  /-- They wait for all loops that had a handle. -/
  | everything (taken : List Nat)
deriving DecidableEq

/-- The loops that they wait for. -/
def Stopping.loops : Stopping → List Nat
  | .activity n => [n]
  | .everything taken => taken

/-- A service at work. -/
structure Scene (Model : Type) where
  scheduler : Scheduler Flight
  sessions : Sessions (Workplace Model)
  stopping : List Stopping

namespace Scene

/-- A scene in which nothing has been started. -/
def opening (sessions : Sessions (Workplace Model)) : Scene Model := ⟨.empty, sessions, []⟩

/-- What is in flight in a loop. -/
def flight? (x : Scene Model) (n : Nat) : Option Flight := x.scheduler.job? n

/-- Whether someone who stops something can come back. -/
def returns (x : Scene Model) (p : Stopping) : Bool :=
  p ∈ x.stopping && p.loops.all x.scheduler.isOver

/-- The desk of a scene. -/
def desk (x : Scene Model) : Desk := x.sessions.world.desk

/-- Whether queries and disposals are still sent. -/
def ways (x : Scene Model) : Bool × Bool := (x.desk.queriesOpen, x.desk.disposalsOpen)

end Scene

/-- Work at the workplace that keeps the ways to other servers as they are. -/
def KeepsWays (change : Workplace Model → Workplace Model) : Prop :=
  ∀ w, (change w).desk.queriesOpen = w.desk.queriesOpen ∧
    (change w).desk.disposalsOpen = w.desk.disposalsOpen

/-! ## Moves -/

/-- One thing that happens to a service at work. -/
inductive Move (Model : Type)
  | start (activities : List Activity)
  | beginStopActivity (name : String)
  | endStopActivity (n : Nat)
  | beginStop
  /-- The activities have been waited for: the ways to other servers are closed. -/
  | endStop (taken : List Nat)
  /-- The signal is given that everything is to end. -/
  | signal
  | beginRun (n now : Nat) (moment : Instant)
  | hear (n : Nat) (reply : Except String String)
  /-- A tool does its work for a call. -/
  | handOver (n : Nat)
  | observe (n : Nat)
  /-- The wait of a run is given up, as everything is shut down. -/
  | interrupt (n : Nat)
  | endRun (n : Nat) (moment : Instant)
  | abortRun (n : Nat)
  | leave (n : Nat)
  /-- Anything else is done at the workplace. -/
  | elsewhere (change : Workplace Model → Workplace Model) (keeps : KeepsWays change)

/-- The engine of a service, where nothing is said of how the model is asked. -/
def reasoning (s : Service) : Engine (Workplace Model) := s.engine fun _ => return none

/-- What is in flight when a run of an activity begins; if everything is shut down, the run is
given up at once. -/
def flight (s : Service) (x : Scene Model) (a : Activity) : Flight :=
  let asked := call a
  let r := s.reasoning.runOf asked.prompt asked.channel asked.session x.sessions
  ⟨if x.scheduler.shutDown then r.cancel else r, none⟩

/-- The work of a tool for a call. -/
def perform (s : Service) (x : Scene Model) (c : Agent.Call) : Act.Done (Workplace Model) Tool.Outcome :=
  s.registry.run c.tool c.args x.sessions.world

namespace Move

/-- What a move is for the scheduler. -/
def onScheduler (s : Service) (x : Scene Model) : Move Model → Option (Scheduler.Move Flight)
  | .start activities => some (.start activities)
  | .beginStopActivity name => some (.beginStopActivity name)
  | .endStopActivity n => if x.returns (.activity n) then some (.endStopActivity n) else none
  | .beginStop => some .beginStop
  | .endStop taken => if x.returns (.everything taken) then some (.endStop taken) else none
  | .signal => some .shutdown
  | .beginRun n now moment =>
    x.scheduler.loops[n]?.map fun l => .beginRun n now moment (s.flight x l.activity)
  | .hear n reply => (x.flight? n).map fun f => .proceed n (f.hear reply)
  | .handOver n => do
    let f ← x.flight? n
    let c ← f.call?
    return .proceed n { f with outcome := some (s.perform x c).result }
  | .observe n =>
    (x.flight? n).map fun f => .proceed n (f.observe (max s.toolTimeout 1 * 1000))
  | .interrupt n =>
    if x.scheduler.shutDown then (x.flight? n).map fun f => .proceed n f.interrupt else none
  | .endRun n moment => do
    let f ← x.flight? n
    if f.run.isEnded then return .endRun n moment (Engine.result f.run) else none
  | .abortRun n => do
    let f ← x.flight? n
    if f.run.isEnded then none else return .abortRun n
  | .leave n => some (.leave n)
  | .elsewhere .. => none

/-- What a move makes of the sessions and of the workplace. -/
def onSessions (s : Service) (x : Scene Model) : Move Model → Sessions (Workplace Model)
  | .handOver n =>
    match (x.flight? n).bind Flight.call? with
    | some c => { x.sessions with world := (s.perform x c).world }
    | none => x.sessions
  | .endRun n _ =>
    match x.flight? n with
    | some f =>
      if f.run.isEnded then
        let e : Engine (Workplace Model) := s.reasoning
        { x.sessions with histories := e.remember f.run x.sessions.histories }
      else x.sessions
    | none => x.sessions
  | .endStop taken =>
    if x.returns (.everything taken) then
      { x.sessions with
        world := { x.sessions.world with desk := (Desk.close x.sessions.world.desk).world } }
    else x.sessions
  | .signal => { x.sessions with world := { x.sessions.world with signalled := true } }
  | .elsewhere change _ => { x.sessions with world := change x.sessions.world }
  | _ => x.sessions

/-- What a move makes of those who stop something. -/
def onStopping (x : Scene Model) : Move Model → List Stopping
  | .beginStopActivity name =>
    ((x.scheduler.handles.get? name).map Stopping.activity).toList ++ x.stopping
  | .beginStop => .everything x.scheduler.handles.values :: x.stopping
  | .endStopActivity n =>
    if x.returns (.activity n) then x.stopping.erase (.activity n) else x.stopping
  | .endStop taken =>
    if x.returns (.everything taken) then x.stopping.erase (.everything taken) else x.stopping
  | _ => x.stopping

/-- The scene after a move. -/
def next (s : Service) (m : Move Model) (x : Scene Model) : Scene Model where
  scheduler :=
    match m.onScheduler s x with
    | some k => k.next x.scheduler
    | none => x.scheduler
  sessions := m.onSessions s x
  stopping := m.onStopping x

end Move

/-- A scene after some moves. -/
def after (s : Service) (x : Scene Model) (moves : List (Move Model)) : Scene Model :=
  moves.foldl (fun x m => m.next s x) x

theorem after_cons (s : Service) (x : Scene Model) (m : Move Model) (moves : List (Move Model)) :
    s.after x (m :: moves) = s.after (m.next s x) moves := rfl

theorem after_append (s : Service) (x : Scene Model) (first then_ : List (Move Model)) :
    s.after x (first ++ then_) = s.after (s.after x first) then_ :=
  List.foldl_append

/-- What every move keeps holds after any moves. -/
theorem after_induction (s : Service) {P : Scene Model → Prop}
    (step : ∀ x (m : Move Model), P x → P (m.next s x)) {x : Scene Model} (holds : P x)
    (moves : List (Move Model)) : P (s.after x moves) := by
  induction moves generalizing x with
  | nil => exact holds
  | cons m rest ih => exact ih (step x m holds)

/-- A move that is one of the scheduler does to the scheduler what that does. -/
theorem scheduler_of_move {s : Service} {m : Move Model} {x : Scene Model}
    {k : Scheduler.Move Flight} (same : m.onScheduler s x = some k) :
    (m.next s x).scheduler = k.next x.scheduler := by
  unfold Move.next
  rw [same]

/-- A move does to the scheduler what some move of the scheduler does, or nothing. -/
theorem scheduler_next (s : Service) (m : Move Model) (x : Scene Model) :
    (m.next s x).scheduler = x.scheduler ∨
      ∃ k, m.onScheduler s x = some k ∧ (m.next s x).scheduler = k.next x.scheduler := by
  cases h : m.onScheduler s x with
  | none =>
    unfold Move.next
    rw [h]
    exact Or.inl rfl
  | some k => exact Or.inr ⟨k, rfl, scheduler_of_move h⟩

theorem shutDown_next (s : Service) (m : Move Model) {x : Scene Model}
    (down : x.scheduler.shutDown = true) : (m.next s x).scheduler.shutDown = true := by
  rcases s.scheduler_next m x with same | ⟨k, _, same⟩
  · rw [same, down]
  · rw [same, k.next_shutDown down]

/-! ## What a move does to a run -/

/-- How a run in flight in a loop, or its absence, can go on in one move. -/
inductive Goes (s : Service) (x : Scene Model) (n : Nat) :
    Option Flight → Move Model → Option Flight → Prop
  /-- The move is not about it. -/
  | stays (f : Option Flight) (m : Move Model) : Goes s x n f m f
  | begins {l : Loop Flight} (now : Nat) (moment : Instant)
      (found : x.scheduler.loops[n]? = some l) :
    Goes s x n none (.beginRun n now moment) (some (s.flight x l.activity))
  | hears (f : Flight) (reply : Except String String) :
    Goes s x n (some f) (.hear n reply) (some (f.hear reply))
  | handsOver {f : Flight} {c : Agent.Call} (pending : f.call? = some c) :
    Goes s x n (some f) (.handOver n) (some { f with outcome := some (s.perform x c).result })
  | observes (f : Flight) :
    Goes s x n (some f) (.observe n) (some (f.observe (max s.toolTimeout 1 * 1000)))
  | isInterrupted (f : Flight) (down : x.scheduler.shutDown = true) :
    Goes s x n (some f) (.interrupt n) (some f.interrupt)
  | ends {f : Flight} (moment : Instant) (ended : f.run.isEnded = true) :
    Goes s x n (some f) (.endRun n moment) none
  | aborts {f : Flight} (underway : f.run.isEnded = false) :
    Goes s x n (some f) (.abortRun n) none

/-- A move that no loop makes, or another one, leaves the run in flight in a loop alone. -/
theorem goes_of_other {s : Service} {m : Move Model} {x : Scene Model} {n : Nat}
    (other : ∀ k, m.onScheduler s x = some k → k.maker? ≠ some n) :
    Goes s x n (x.flight? n) m ((m.next s x).flight? n) := by
  have same : (m.next s x).flight? n = x.flight? n := by
    unfold Move.next Scene.flight?
    cases h : m.onScheduler s x with
    | none => rfl
    | some k => exact Scheduler.job?_of_not_maker (other k h) _
  rw [same]
  exact .stays _ _

/-- It is enough to look at the moves that a loop makes itself. -/
theorem goes_of_maker {s : Service} {m : Move Model} {x : Scene Model} {n : Nat}
    (k : Scheduler.Move Flight) (same : m.onScheduler s x = some k)
    (goes : k.maker? = some n → Goes s x n (x.flight? n) m ((k.next x.scheduler).job? n)) :
    Goes s x n (x.flight? n) m ((m.next s x).flight? n) := by
  by_cases made : k.maker? = some n
  · have flight : (m.next s x).flight? n = (k.next x.scheduler).job? n := by
      rw [Scene.flight?, scheduler_of_move same]
    rw [flight]
    exact goes made
  · refine goes_of_other fun j h => ?_
    rw [same] at h
    cases h
    exact made

/-- The same, of a move that puts something in the place of what is in flight. -/
theorem goes_of_proceed {s : Service} {m : Move Model} {x : Scene Model} {k n : Nat}
    {f : Flight} (g : Flight) (found : x.flight? k = some f)
    (same : m.onScheduler s x = some (.proceed k g)) (goes : k = n → Goes s x n (some f) m (some g)) :
    Goes s x n (x.flight? n) m ((m.next s x).flight? n) := by
  refine goes_of_maker _ same fun made => ?_
  cases made
  have job : x.scheduler.job? k = some f := found
  rw [Scheduler.job?_proceed, job, found]
  exact goes rfl

/-- The interruption of a run in flight, for the scheduler. -/
theorem onScheduler_interrupt {s : Service} {x : Scene Model} {n : Nat} {f : Flight}
    (down : x.scheduler.shutDown = true) (found : x.flight? n = some f) :
    Move.onScheduler s x (.interrupt n) = some (.proceed n f.interrupt) := by
  simp [Move.onScheduler, down, found]

/-- **What one move can do to the run in flight in a loop.** -/
theorem flight?_next (s : Service) (m : Move Model) (x : Scene Model) (n : Nat) :
    Goes s x n (x.flight? n) m ((m.next s x).flight? n) := by
  cases m with
  | start | beginStopActivity | beginStop | signal | elsewhere =>
    refine goes_of_other fun k h => ?_
    cases h <;> nofun
  | endStopActivity | endStop =>
    refine goes_of_other fun k h => ?_
    simp only [Move.onScheduler] at h
    split at h <;> cases h
    nofun
  | leave k =>
    refine goes_of_maker (.leave k) rfl fun made => ?_
    cases made
    rw [Scheduler.job?_leave]
    exact .stays _ _
  | beginRun k now moment =>
    cases found : x.scheduler.loops[k]? with
    | none => exact goes_of_other (by simp [Move.onScheduler, found])
    | some l =>
      refine goes_of_maker (.beginRun k now moment (s.flight x l.activity))
        (by simp [Move.onScheduler, found]) fun made => ?_
      cases made
      rcases Scheduler.job?_beginRun x.scheduler n now moment (s.flight x l.activity) with
        same | ⟨idle, begun⟩
      · rw [same]
        exact .stays _ _
      · rw [begun, Scene.flight?, idle]
        exact .begins now moment found
  | hear k reply =>
    cases found : x.flight? k with
    | none => exact goes_of_other (by simp [Move.onScheduler, found])
    | some f =>
      refine goes_of_proceed (f.hear reply) found (by simp [Move.onScheduler, found]) ?_
      rintro rfl
      exact .hears f reply
  | observe k =>
    cases found : x.flight? k with
    | none => exact goes_of_other (by simp [Move.onScheduler, found])
    | some f =>
      refine goes_of_proceed (f.observe (max s.toolTimeout 1 * 1000)) found
        (by simp [Move.onScheduler, found]) ?_
      rintro rfl
      exact .observes f
  | interrupt k =>
    cases down : x.scheduler.shutDown with
    | false => exact goes_of_other (by simp [Move.onScheduler, down])
    | true =>
      cases found : x.flight? k with
      | none => exact goes_of_other (by simp [Move.onScheduler, down, found])
      | some f =>
        refine goes_of_proceed f.interrupt found (onScheduler_interrupt down found) ?_
        rintro rfl
        exact .isInterrupted f down
  | handOver k =>
    cases found : x.flight? k with
    | none => exact goes_of_other (by simp [Move.onScheduler, found])
    | some f =>
      cases pending : f.call? with
      | none => exact goes_of_other (by simp [Move.onScheduler, found, pending])
      | some c =>
        refine goes_of_proceed { f with outcome := some (s.perform x c).result } found
          (by simp [Move.onScheduler, found, pending]) ?_
        rintro rfl
        exact .handsOver pending
  | endRun k moment =>
    cases found : x.flight? k with
    | none => exact goes_of_other (by simp [Move.onScheduler, found])
    | some f =>
      cases ended : f.run.isEnded with
      | false => exact goes_of_other (by simp [Move.onScheduler, found, ended])
      | true =>
        refine goes_of_maker (.endRun k moment (Engine.result f.run))
          (by simp [Move.onScheduler, found, ended]) fun made => ?_
        cases made
        rw [Scheduler.job?_endRun, found]
        exact .ends moment ended
  | abortRun k =>
    cases found : x.flight? k with
    | none => exact goes_of_other (by simp [Move.onScheduler, found])
    | some f =>
      cases ended : f.run.isEnded with
      | true => exact goes_of_other (by simp [Move.onScheduler, found, ended])
      | false =>
        refine goes_of_maker (.abortRun k)
          (by simp [Move.onScheduler, found, ended]) fun made => ?_
        cases made
        rw [Scheduler.job?_abortRun, found]
        exact .aborts ended

/-! ## Loops and those who wait for them -/

/-- A move does to a loop what some move of the scheduler does: it keeps its number and its
activity, and stays over if it is. -/
theorem loop_next (s : Service) (m : Move Model) (x : Scene Model) {n : Nat} {l : Loop Flight}
    (found : x.scheduler.loops[n]? = some l) :
    ∃ l', (m.next s x).scheduler.loops[n]? = some l' ∧ l'.activity = l.activity ∧
      (l.isOver = true → l'.isOver = true) := by
  rcases s.scheduler_next m x with same | ⟨k, _, same⟩
  · rw [same]
    exact ⟨l, found, rfl, id⟩
  · rw [same]
    exact k.next_loop x.scheduler found

/-- After everything was shut down no loop is new. -/
theorem loop_of_next (s : Service) (m : Move Model) {x : Scene Model}
    (down : x.scheduler.shutDown = true) {n : Nat} {l' : Loop Flight}
    (found' : (m.next s x).scheduler.loops[n]? = some l') :
    ∃ l, x.scheduler.loops[n]? = some l ∧ l'.activity = l.activity := by
  cases found : x.scheduler.loops[n]? with
  | some l =>
    obtain ⟨k, hk, activity, _⟩ := s.loop_next m x found
    rw [found'] at hk
    cases hk
    exact ⟨l, rfl, activity⟩
  | none =>
    rcases s.scheduler_next m x with same | ⟨k, _, same⟩
    · rw [same, found] at found'
      cases found'
    · rw [same] at found'
      rw [(k.next_new x.scheduler found' found).1] at down
      cases down

/-- Every loop that is alive can be stopped, or someone waits for its end. -/
def Attended (x : Scene Model) : Prop :=
  Scheduler.Watched (x.stopping.flatMap Stopping.loops) x.scheduler

/-- Someone who comes back waits for nothing any more. -/
theorem mem_erase_or_over {x : Scene Model} {p : Stopping} (returns : x.returns p = true) {n : Nat}
    (mem : n ∈ x.stopping.flatMap Stopping.loops) :
    n ∈ (x.stopping.erase p).flatMap Stopping.loops ∨ x.scheduler.isOver n = true := by
  obtain ⟨q, hq, hn⟩ := List.mem_flatMap.mp mem
  by_cases same : q = p
  · subst same
    simp only [Scene.returns, Bool.and_eq_true, List.all_eq_true] at returns
    exact Or.inr (returns.2 n hn)
  · exact Or.inl (List.mem_flatMap.mpr ⟨q, (List.mem_erase_of_ne same).mpr hq, hn⟩)

/-- A move that takes no handle, and after which the same people wait. -/
theorem Attended.of_untaken {x : Scene Model} (attended : Attended x) {s : Service}
    {m : Move Model} (stopping : m.onStopping x = x.stopping)
    (untaken : ∀ k, m.onScheduler s x = some k → k.taken x.scheduler = []) :
    Attended (m.next s x) := by
  show Scheduler.Watched ((m.onStopping x).flatMap Stopping.loops) _
  rw [stopping]
  rcases s.scheduler_next m x with same | ⟨k, some, same⟩
  · rw [same]
    exact attended
  · have watched := Scheduler.Watched.next attended k
    rw [untaken k some, List.nil_append] at watched
    rw [same]
    exact watched

/-- **Who takes a handle waits for the loop.** -/
theorem Attended.next {x : Scene Model} (attended : Attended x) (s : Service) (m : Move Model) :
    Attended (m.next s x) := by
  cases m with
  | beginStopActivity name =>
    refine Scheduler.Watched.mono (Scheduler.Watched.next attended (.beginStopActivity name)) ?_
    intro n mem
    left
    show n ∈ (((x.scheduler.handles.get? name).map Stopping.activity).toList ++
      x.stopping).flatMap Stopping.loops
    rw [List.flatMap_append]
    refine List.mem_append.mpr ((List.mem_append.mp mem).imp_left fun taken => ?_)
    rw [Scheduler.Move.taken] at taken
    cases found : x.scheduler.handles.get? name with
    | none => rw [found] at taken; cases taken
    | some k => rw [found] at taken; simpa [Stopping.loops] using taken
  | beginStop => exact Scheduler.Watched.next attended .beginStop
  | endStopActivity k =>
    cases returns : x.returns (.activity k) with
    | false =>
      exact attended.of_untaken (by simp [Move.onStopping, returns])
        (by simp [Move.onScheduler, returns])
    | true =>
      have same : (Move.next s (.endStopActivity k) x).scheduler = x.scheduler := by
        simp [Move.next, Move.onScheduler, returns, Scheduler.next_endStopActivity]
      have left : (Move.next s (.endStopActivity k) x).stopping =
          x.stopping.erase (.activity k) := by
        simp [Move.next, Move.onStopping, returns]
      rw [Attended, same, left]
      exact Scheduler.Watched.mono attended fun n mem => mem_erase_or_over returns mem
  | endStop taken =>
    cases returns : x.returns (.everything taken) with
    | false =>
      exact attended.of_untaken (by simp [Move.onStopping, returns])
        (by simp [Move.onScheduler, returns])
    | true =>
      have same : (Move.next s (.endStop taken) x).scheduler = x.scheduler := by
        simp [Move.next, Move.onScheduler, returns, Scheduler.next_endStop]
      have left : (Move.next s (.endStop taken) x).stopping =
          x.stopping.erase (.everything taken) := by
        simp [Move.next, Move.onStopping, returns]
      rw [Attended, same, left]
      exact Scheduler.Watched.mono attended fun n mem => mem_erase_or_over returns mem
  | start | signal | leave | elsewhere =>
    refine attended.of_untaken rfl fun k h => ?_
    cases h <;> rfl
  | beginRun | hear | observe =>
    refine attended.of_untaken rfl fun k h => ?_
    simp only [Move.onScheduler, Option.map_eq_some_iff] at h
    obtain ⟨_, _, rfl⟩ := h
    rfl
  | interrupt n =>
    refine attended.of_untaken rfl fun k h => ?_
    simp only [Move.onScheduler] at h
    split at h
    · obtain ⟨_, _, rfl⟩ := Option.map_eq_some_iff.mp h
      rfl
    · cases h
  | handOver n =>
    refine attended.of_untaken rfl fun k h => ?_
    simp only [Move.onScheduler, Option.bind_eq_bind, Option.bind_eq_some_iff] at h
    obtain ⟨_, _, _, _, h⟩ := h
    cases h
    rfl
  | endRun | abortRun =>
    refine attended.of_untaken rfl fun k h => ?_
    simp only [Move.onScheduler, Option.bind_eq_bind, Option.bind_eq_some_iff] at h
    obtain ⟨_, _, h⟩ := h
    split at h
    · cases h <;> rfl
    · cases h <;> rfl

/-! ## Sessions -/

/-- What is in flight in a loop belongs to the session of its activity. -/
def Addressed (x : Scene Model) : Prop :=
  ∀ n l f, x.scheduler.loops[n]? = some l → x.flight? n = some f →
    f.run.session = Engine.sessionKey channel l.activity.name

/-- The run in flight in a loop after a move is the one before it, in the same session, or one
that has begun. -/
theorem Goes.session_eq {s : Service} {x : Scene Model} {n : Nat} {before after : Option Flight}
    {m : Move Model} (goes : Goes s x n before m after) {g : Flight} (found : after = some g) :
    (∃ f, before = some f ∧ g.run.session = f.run.session) ∨
      ∃ l, x.scheduler.loops[n]? = some l ∧
        g.run.session = Engine.sessionKey channel l.activity.name := by
  cases goes with
  | stays => exact Or.inl ⟨g, found, rfl⟩
  | begins now moment hl =>
    cases found
    refine Or.inr ⟨_, hl, ?_⟩
    unfold flight
    dsimp only
    split
    · exact Flight.session_cancel _
    · rfl
  | hears f reply =>
    cases found
    exact Or.inl ⟨f, rfl, f.session_hear reply⟩
  | observes f =>
    cases found
    exact Or.inl ⟨f, rfl, f.session_observe _⟩
  | @handsOver f c pending =>
    cases found
    exact Or.inl ⟨f, rfl, rfl⟩
  | isInterrupted f =>
    cases found
    exact Or.inl ⟨f, rfl, Flight.session_cancel f.run⟩
  | ends | aborts => cases found

theorem exists_loop_of_flight {x : Scene Model} {n : Nat} {f : Flight}
    (found : x.flight? n = some f) : ∃ l, x.scheduler.loops[n]? = some l := by
  cases h : x.scheduler.loops[n]? with
  | some l => exact ⟨l, rfl⟩
  | none => simp [Scene.flight?, Scheduler.job?, h] at found

/-- **Runs stay in their sessions.** -/
theorem Addressed.next {x : Scene Model} (addressed : Addressed x) (s : Service) (m : Move Model) :
    Addressed (m.next s x) := by
  intro n l' g found' hg
  rcases (s.flight?_next m x n).session_eq hg with ⟨f, hf, same⟩ | ⟨l, found, same⟩
  · obtain ⟨l, found⟩ := exists_loop_of_flight hf
    obtain ⟨k, hk, activity, _⟩ := s.loop_next m x found
    rw [found'] at hk
    cases hk
    rw [same, activity, addressed n l f found hf]
  · obtain ⟨k, hk, activity, _⟩ := s.loop_next m x found
    rw [found'] at hk
    cases hk
    rw [same, activity]

/-- **Only the end of a run changes what is remembered**, if it is one to be remembered. -/
theorem histories_next (s : Service) (m : Move Model) (x : Scene Model) :
    (m.next s x).sessions.histories = x.sessions.histories ∨
      ∃ n moment f messages, m = .endRun n moment ∧ x.flight? n = some f ∧
        Run.isRemembered (Engine.result f.run) = true ∧
        (m.next s x).sessions.histories = x.sessions.histories.insert f.run.session messages := by
  show (m.onSessions s x).histories = _ ∨ ∃ n moment f messages, _ ∧ _ ∧ _ ∧
    (m.onSessions s x).histories = _
  cases m with
  | endRun n moment =>
    simp only [Move.onSessions]
    cases found : x.flight? n with
    | none => exact Or.inl rfl
    | some f =>
      cases ended : f.run.isEnded with
      | false => exact Or.inl (by simp [ended])
      | true =>
        cases remembered : Run.isRemembered (Engine.result f.run) with
        | false => exact Or.inl (by simp [ended, Engine.remember, remembered])
        | true =>
          refine Or.inr ⟨n, moment, f, Engine.lastMessages s.maxHistory f.run.conversation, rfl, found,
            remembered, ?_⟩
          simp only [ended, if_true, Engine.remember, remembered]
          rfl
  | handOver n =>
    simp only [Move.onSessions]
    split <;> exact Or.inl rfl
  | endStop taken =>
    simp only [Move.onSessions]
    split <;> exact Or.inl rfl
  | _ => exact Or.inl rfl

/-! ## The ways to other servers -/

/-- No call of a tool opens or closes anything. -/
theorem keepsWays_run (s : Service) (name : String) (args : Json) :
    KeepsWays fun w : Workplace Model => (s.registry.run name args w).world := by
  intro w
  by_cases filing : name = Filing.toolName
  · rw [filing, (s.registry_run_filing args w).2]
    unfold Filing.file
    cases Filing.Form.read args with
    | error f => exact ⟨rfl, rfl⟩
    | ok form => exact ⟨rfl, rfl⟩
  · exact Desk.AtMostSends.ways_eq (s.registry_run_other filing args w)

/-- **Only the return of a stop closes the ways.** -/
theorem ways_next (s : Service) {m : Move Model} {x : Scene Model}
    (other : ∀ taken, m = .endStop taken → x.returns (.everything taken) = false) :
    (m.next s x).ways = x.ways := by
  show ((m.onSessions s x).world.desk.queriesOpen, (m.onSessions s x).world.desk.disposalsOpen) = _
  cases m with
  | endStop taken =>
    simp only [Move.onSessions, other taken rfl]
    rfl
  | handOver n =>
    simp only [Move.onSessions]
    split
    · rename_i c _
      obtain ⟨queries, disposals⟩ := s.keepsWays_run c.tool c.args x.sessions.world
      exact Prod.ext queries disposals
    · rfl
  | endRun n moment =>
    simp only [Move.onSessions]
    split
    · split <;> rfl
    · rfl
  | elsewhere change keeps =>
    obtain ⟨queries, disposals⟩ := keeps x.sessions.world
    exact Prod.ext queries disposals
  | _ => rfl

/-- What the return of a stop does. -/
theorem endStop_of_returns (s : Service) {x : Scene Model} {taken : List Nat}
    (returns : x.returns (.everything taken) = true) :
    (Move.endStop taken).next s x =
      { scheduler := x.scheduler
        sessions := { x.sessions with
          world := { x.sessions.world with desk := (Desk.close x.sessions.world.desk).world } }
        stopping := x.stopping.erase (.everything taken) } := by
  simp [Move.next, Move.onScheduler, Move.onSessions, Move.onStopping, returns,
    Scheduler.next_endStop]

/-- A way that is closed is never opened again. -/
theorem ways_of_closed (s : Service) (m : Move Model) {x : Scene Model}
    (closed : x.ways = (false, false)) : (m.next s x).ways = (false, false) := by
  by_cases stops : ∃ taken, m = .endStop taken ∧ x.returns (.everything taken) = true
  · obtain ⟨taken, rfl, returns⟩ := stops
    rw [s.endStop_of_returns returns]
    rfl
  · rw [s.ways_next, closed]
    intro taken ends
    cases returns : x.returns (.everything taken) with
    | false => rfl
    | true => exact absurd ⟨taken, ends, returns⟩ stops

end TriageDesk.Service
