/-
TriageDesk.Proofs.Service.Performance — what the functions of a service do, shown in
scenes.

In a course of a service a run is handed to the engine and worked on until it ends, or
until the model stays silent, before anything else happens. In a scene the same takes
many moves (`Leads`). A scene `Shows` a course if it has the same sessions, and the same
scheduler apart from what is in flight: a run that is held there until everything is shut
down is in the middle of its reasoning here.

Every function of the program is taken apart into the moves that it is made of: one wait
of the engine and all of them (`leads_advance`, `leads_advances`), a run that begins
(`shows_begun`), the turn of a loop (`reaches_turn`), and so whatever happens in the
course of time (`lasting_reaches`).
-/
import TriageDesk.Proofs.Activity.Keeping
import TriageDesk.Proofs.Activity.Outline
import TriageDesk.Proofs.Activity.Turns
import TriageDesk.Proofs.Service.Course

namespace TriageDesk.Service

open Activity Agent Time

variable {Model : Type}

/-! ## Moves of loops -/

/-- The moves that loops make, and their runs. After everything was shut down a run hears of
nothing any more. -/
def Move.OfLoops (down : Bool) : Move Model → Prop
  | .signal | .beginRun .. | .interrupt _ | .endRun .. | .leave _ | .elsewhere .. => True
  | .hear .. | .handOver _ | .observe _ => down = false
  | .start _ | .beginStopActivity _ | .endStopActivity _ | .beginStop | .endStop _
  | .abortRun _ => False

theorem Move.OfLoops.mono {down down' : Bool} {m : Move Model} (own : m.OfLoops down')
    (later : down = true → down' = true) : m.OfLoops down := by
  cases m with
  | hear | handOver | observe =>
    cases down with
    | false => rfl
    | true => exact absurd own (by simp [OfLoops, later rfl])
  | _ => exact own

theorem Move.OfLoops.onStopping {down : Bool} {m : Move Model} (own : m.OfLoops down)
    (x : Scene Model) : m.onStopping x = x.stopping := by
  cases m with
  | start | beginStopActivity | endStopActivity | beginStop | endStop | abortRun => exact own.elim
  | _ => rfl

theorem Move.OfLoops.ne_beginStop {down : Bool} {m : Move Model} (own : m.OfLoops down) :
    m ≠ .beginStop := by
  rintro rfl
  exact own

/-- One scene leads to another by moves of loops. -/
def Leads (s : Service) (down : Bool) (x y : Scene Model) : Prop :=
  ∃ moves, (∀ m ∈ moves, m.OfLoops down) ∧ s.after x moves = y

namespace Leads

variable {s : Service} {down down' : Bool} {x y z : Scene Model}

theorem refl (s : Service) (down : Bool) (x : Scene Model) : Leads s down x x :=
  ⟨[], by simp, rfl⟩

theorem one {m : Move Model} (own : m.OfLoops down) : Leads s down x (m.next s x) :=
  ⟨[m], by simpa using own, rfl⟩

theorem trans (first : Leads s down x y) (second : Leads s down y z) : Leads s down x z := by
  obtain ⟨moves, own, rfl⟩ := first
  obtain ⟨more, own', rfl⟩ := second
  exact ⟨moves ++ more, fun m among => (List.mem_append.mp among).elim (own m) (own' m),
    s.after_append x moves more⟩

theorem mono (leads : Leads s down' x y) (later : down = true → down' = true) :
    Leads s down x y := by
  obtain ⟨moves, own, rfl⟩ := leads
  exact ⟨moves, fun m among => (own m among).mono later, rfl⟩

theorem shutDown (leads : Leads s down x y) (shut : x.scheduler.shutDown = true) :
    y.scheduler.shutDown = true := by
  obtain ⟨moves, _, rfl⟩ := leads
  exact s.after_induction (P := fun x => x.scheduler.shutDown = true)
    (fun _ m down => s.shutDown_next m down) shut moves

end Leads

/-! ## Single moves -/

section

variable {s : Service} {x : Scene Model} {m : Move Model} {n : Nat} {f g : Flight}

/-- A move that goes on with a run in flight. -/
theorem next_of_proceed (found : x.flight? n = some f)
    (same : m.onScheduler s x = some (.proceed n g)) :
    (m.next s x).scheduler.outline = x.scheduler.outline ∧ (m.next s x).flight? n = some g ∧
      ∀ k, k ≠ n → (m.next s x).flight? k = x.flight? k := by
  have moved := scheduler_of_move same
  refine ⟨?_, ?_, fun k other => ?_⟩
  · rw [moved, Scheduler.proceed_outline]
  · rw [Scene.flight?, moved, Scheduler.job?_proceed]
    exact congrArg (Option.map fun _ => g) found
  · rw [Scene.flight?, moved]
    refine Scheduler.job?_of_not_maker ?_ _
    rw [Scheduler.Move.maker?]
    exact fun same => other (Option.some.inj same).symm

/-- The end of a run that has come to its end. -/
theorem next_endRun (found : x.flight? n = some f) (ended : f.run.isEnded = true)
    (moment : Instant) :
    (Move.endRun n moment).next s x =
      { scheduler := (Scheduler.Move.endRun n moment (Engine.result f.run)).next x.scheduler
        sessions := { x.sessions with
          histories := (s.reasoning : Engine (Workplace Model)).remember f.run
            x.sessions.histories }
        stopping := x.stopping } := by
  simp [Move.next, Move.onScheduler, Move.onSessions, Move.onStopping, found, ended]

end

/-! ## The waits of the engine -/

/-- Asking a model leaves the ways to other servers as they are. -/
def AsksOnly (ask : Asking Model) : Prop := ∀ messages, KeepsWays fun w => (ask messages w).world

/-- So do the models that the desk can choose. -/
theorem asksOnly_ask (choice : TriageDesk.Model.Choice) : AsksOnly choice.ask := by
  intro messages w
  cases choice with
  | script => exact ⟨rfl, rfl⟩
  | remote r =>
    simp only [TriageDesk.Model.Choice.ask, Act.bind_apply]
    generalize TriageDesk.Model.Remote.read _ _ = answer
    cases answer <;> exact ⟨rfl, rfl⟩

/-- A scene to which the waits of a run have led: it leaves the workplace as it is now, and
nothing else was touched but the run. If the run was given up, then the signal was given that
everything is to end, or the model stayed silent and the run waits. -/
structure Taken (x : Scene Model) (n : Nat) (r : Run) (w : Workplace Model) (y : Scene Model) :
    Prop where
  sessions : y.sessions = { x.sessions with world := w }
  scheduler : y.scheduler.outline =
    if w.signalled then Scheduler.Move.shutdown.next x.scheduler.outline
    else x.scheduler.outline
  others : ∀ k, k ≠ n → y.flight? k = x.flight? k
  flight : ∃ f, y.flight? n = some f ∧
    (f.run = r ∧ (r.phase = .ended (.error .cancelled) → w.signalled = true) ∨
      f.run.isEnded = false ∧ f.run.cancel = r ∧ w.signalled = false)
  going : r.isEnded = false → y.flight? n = some ⟨r, none⟩ ∧ w.signalled = false

namespace Taken

variable {s : Service} {x y z : Scene Model} {n : Nat} {r r' : Run} {w w' : Workplace Model}

theorem refl (found : x.flight? n = some ⟨r, none⟩) (underway : r.isEnded = false)
    (unsignalled : x.sessions.world.signalled = false) : Taken x n r x.sessions.world x where
  sessions := rfl
  scheduler := by rw [unsignalled]; rfl
  others _ _ := rfl
  flight := ⟨_, found, Or.inl ⟨rfl, fun ended => by simp [Run.isEnded, ended] at underway⟩⟩
  going _ := ⟨found, unsignalled⟩

theorem trans (first : Taken x n r w y) (unsignalled : w.signalled = false)
    (second : Taken y n r' w' z) : Taken x n r' w' z where
  sessions := by rw [second.sessions, first.sessions]
  scheduler := by
    have same := first.scheduler
    rw [unsignalled] at same
    rw [second.scheduler, same]
    rfl
  others k other := (second.others k other).trans (first.others k other)
  flight := second.flight
  going := second.going

end Taken

theorem isEnded_cancel (r : Run) : r.cancel.isEnded = true := by
  unfold Run.cancel
  cases phase : r.phase <;> simp [Run.isEnded, phase]

/-- No happening but an interruption lets a run be given up. -/
theorem not_cancelled_of_step {r m : Run} {h : Happening} (step : Run.Step r h m)
    (heard : h ≠ .interrupted) : m.phase ≠ .ended (.error .cancelled) := by
  cases step with
  | interrupted => exact absurd rfl heard
  | failed | answered | called => simp
  | misread | observed =>
    simp only [Run.next]
    split <;> simp

section

variable {s : Service} {ask : Asking Model} {x : Scene Model} {n : Nat} {r : Run}

/-- A run whose wait ends with the signal that everything is to end is given up. -/
theorem leads_interrupted {f : Flight} (found : x.flight? n = some f)
    (signalled : x.sessions.world.signalled = true) :
    ∃ y, Leads s false x y ∧ Taken x n f.run.cancel x.sessions.world y := by
  let x₁ := Move.signal.next s x
  have sessions : x₁.sessions = x.sessions := by
    obtain ⟨_, ⟨_, ⟨_, _, _⟩⟩, _⟩ := x
    cases signalled
    rfl
  have flights : ∀ k, x₁.flight? k = x.flight? k := fun k =>
    Scheduler.job?_of_not_maker (m := .shutdown) (by simp [Scheduler.Move.maker?]) x.scheduler
  have found₁ : x₁.flight? n = some f := (flights n).trans found
  obtain ⟨outline, flight, others⟩ :=
    next_of_proceed found₁ (onScheduler_interrupt (s := s) (x := x₁) rfl found₁)
  refine ⟨_, (Leads.one (m := .signal) trivial).trans (Leads.one (m := .interrupt n) trivial), ?_⟩
  refine ⟨sessions, ?_, fun k other => (others k other).trans (flights k), ?_, ?_⟩
  · rw [outline, signalled]
    rfl
  · exact ⟨_, flight, Or.inl ⟨rfl, fun _ => signalled⟩⟩
  · rw [isEnded_cancel]
    exact fun going => by cases going

/-- The wait for a reply of the model, as far as moves go. -/
theorem leads_asking (only : AsksOnly ask) (found : x.flight? n = some ⟨r, none⟩)
    (waits : r.phase = .asking) :
    ∃ y, Leads s false x y ∧ Taken x n ((s.engine ask).advance r x.sessions.world).result
      ((s.engine ask).advance r x.sessions.world).world y := by
  obtain ⟨world, result⟩ := (s.engine ask).advance_asking waits x.sessions.world
  let w := (ask r.request x.sessions.world).world
  have underway : r.isEnded = false := by simp [Run.isEnded, waits]
  -- the question is put
  let x₁ := (Move.elsewhere _ (only r.request)).next s x
  have asked : Leads s false x x₁ := Leads.one trivial
  have found₁ : x₁.flight? n = some ⟨r, none⟩ := found
  have taken₁ : ∀ {r' y}, Taken x₁ n r' w y → Taken x n r' w y := fun taken =>
    ⟨taken.sessions, taken.scheduler, taken.others, taken.flight, taken.going⟩
  rw [world]
  cases signalled : w.signalled with
  | true =>
    rw [result.trans (if_pos signalled)]
    obtain ⟨y, leads, taken⟩ := leads_interrupted (s := s) found₁ signalled
    exact ⟨y, asked.trans leads, taken₁ taken⟩
  | false =>
    have going : ¬ w.signalled = true := by simp [signalled]
    rw [result.trans (if_neg going)]
    cases answer : ((s.engine ask).ask r.request x.sessions.world).result with
    | none =>
      refine ⟨x₁, asked, rfl, ?_, fun _ _ => rfl, ?_, ?_⟩
      · exact (if_neg going).symm
      · exact ⟨_, found₁, Or.inr ⟨underway, rfl, signalled⟩⟩
      · rw [isEnded_cancel]
        exact fun going => by cases going
    | some reply =>
      have hears : Move.onScheduler s x₁ (.hear n reply) =
          some (.proceed n ⟨(r.hear reply).1, none⟩) := by
        simp [Move.onScheduler, found₁, Flight.hear, waits]
      obtain ⟨outline, flight, others⟩ := next_of_proceed found₁ hears
      refine ⟨_, asked.trans (Leads.one (m := .hear n reply) rfl), rfl, ?_, others, ?_, ?_⟩
      · exact outline.trans (if_neg going).symm
      · refine ⟨_, flight, Or.inl ⟨rfl, fun ended => ?_⟩⟩
        exact absurd ended (not_cancelled_of_step (Run.step_hear waits reply) (by simp))
      · exact fun _ => ⟨flight, signalled⟩

/-- The wait for the end of a call, as far as moves go. -/
theorem leads_performing (found : x.flight? n = some ⟨r, none⟩) {c : Agent.Call} {output : String}
    (waits : r.phase = .performing c output) :
    ∃ y, Leads s false x y ∧ Taken x n ((s.engine ask).advance r x.sessions.world).result
      ((s.engine ask).advance r x.sessions.world).world y := by
  obtain ⟨world, result⟩ := (s.engine ask).advance_performing waits x.sessions.world
  -- the tool does its work
  let done := s.perform x c
  let x₁ := (Move.handOver n).next s x
  have pending : Flight.call? ⟨r, none⟩ = some c := by simp [Flight.call?, waits]
  have handsOver : Move.onScheduler s x (.handOver n) =
      some (.proceed n ⟨r, some done.result⟩) := by
    simp [Move.onScheduler, found, pending, done]
  have sessions : x₁.sessions = { x.sessions with world := done.world } := by
    simp [x₁, Move.next, Move.onSessions, found, pending, done]
  obtain ⟨outline, found₁, others⟩ := next_of_proceed found handsOver
  have handed : Leads s false x x₁ := Leads.one rfl
  have left : ((s.engine ask).advance r x.sessions.world).world = done.world := world
  rw [left]
  cases signalled : done.world.signalled with
  | true =>
    rw [result.trans (if_pos signalled)]
    have signalled₁ : x₁.sessions.world.signalled = true := by
      rw [sessions]
      exact signalled
    obtain ⟨y, leads, taken⟩ := leads_interrupted (s := s) found₁ signalled₁
    refine ⟨y, handed.trans leads, ?_⟩
    rw [sessions] at taken
    refine ⟨?_, ?_, fun k other => (taken.others k other).trans (others k other), taken.flight,
      taken.going⟩
    · rw [taken.sessions, sessions]
    · rw [taken.scheduler, outline]
  | false =>
    have going : ¬ done.world.signalled = true := by simp [signalled]
    rw [result.trans (if_neg going)]
    let result := Executor.result (max s.toolTimeout 1 * 1000) c.tool done.result
    have observes : Move.onScheduler s x₁ (.observe n) =
        some (.proceed n ⟨(r.observe c output result).1, none⟩) := by
      simp [Move.onScheduler, x₁, found₁, Flight.observe, waits, result]
    obtain ⟨outline', flight, others'⟩ := next_of_proceed found₁ observes
    refine ⟨_, handed.trans (Leads.one (m := .observe n) rfl), sessions, ?_,
      fun k other => (others' k other).trans (others k other), ?_, ?_⟩
    · exact (outline'.trans outline).trans (if_neg going).symm
    · refine ⟨_, flight, Or.inl ⟨rfl, fun ended => ?_⟩⟩
      exact absurd ended (not_cancelled_of_step (Run.step_observe waits _ done.result) (by simp))
    · exact fun _ => ⟨flight, signalled⟩

/-- **A wait of the engine** takes a run in flight as far as moves do. -/
theorem leads_advance (only : AsksOnly ask) (found : x.flight? n = some ⟨r, none⟩)
    (underway : r.isEnded = false) :
    ∃ y, Leads s false x y ∧ Taken x n ((s.engine ask).advance r x.sessions.world).result
      ((s.engine ask).advance r x.sessions.world).world y := by
  cases waits : r.phase with
  | asking => exact leads_asking only found waits
  | performing c output => exact leads_performing found waits
  | ended => simp [Run.isEnded, waits] at underway

/-- **All waits of the engine**, one after the other. -/
theorem leads_advances (only : AsksOnly ask) (waits : Nat) (found : x.flight? n = some ⟨r, none⟩)
    (underway : r.isEnded = false) (unsignalled : x.sessions.world.signalled = false) :
    ∃ y, Leads s false x y ∧ Taken x n ((s.engine ask).advances waits r x.sessions.world).result
      ((s.engine ask).advances waits r x.sessions.world).world y := by
  induction waits generalizing x r with
  | zero => exact ⟨x, .refl s false x, .refl found underway unsignalled⟩
  | succ waits ih =>
    obtain ⟨result, world, -⟩ := (s.engine ask).advances_succ underway waits x.sessions.world
    rw [result, world]
    obtain ⟨y, leads, taken⟩ := leads_advance (s := s) only found underway
    cases ended : ((s.engine ask).advance r x.sessions.world).result.isEnded with
    | true =>
      rw [((s.engine ask).advances_ended ended waits _).1]
      exact ⟨y, leads, taken⟩
    | false =>
      obtain ⟨found', unsignalled'⟩ := taken.going ended
      have here : y.sessions.world = ((s.engine ask).advance r x.sessions.world).world := by
        rw [taken.sessions]
      rw [← here] at unsignalled' taken ⊢
      obtain ⟨z, leads', taken'⟩ := ih found' ended unsignalled'
      exact ⟨z, leads.trans leads', taken.trans unsignalled' taken'⟩

end

/-! ## Scenes that show a course -/

/-- A scene shows a course: what is in flight in the one waits in the other for the end of
everything. -/
structure Shows (x : Scene Model) (c : Course Model) : Prop where
  sessions : x.sessions = c.world
  scheduler : x.scheduler.outline = c.scheduler.outline
  held : ∀ k job, c.scheduler.job? k = some job → job = .held
  underway : ∀ k f, x.flight? k = some f → f.run.isEnded = false
  signalled : c.world.world.signalled = true → c.scheduler.shutDown = true

/-- A scene shows a course beside one loop. -/
structure Beside (n : Nat) (x : Scene Model) (c : Course Model) : Prop where
  scheduler : x.scheduler.outline = c.scheduler.outline
  held : ∀ k, k ≠ n → ∀ job, c.scheduler.job? k = some job → job = .held
  underway : ∀ k, k ≠ n → ∀ f, x.flight? k = some f → f.run.isEnded = false
  signalled : c.world.world.signalled = true → c.scheduler.shutDown = true

theorem Shows.beside {x : Scene Model} {c : Course Model} (shows_ : Shows x c) (n : Nat) :
    Beside n x c :=
  ⟨shows_.scheduler, fun k _ => shows_.held k, fun k _ => shows_.underway k, shows_.signalled⟩

theorem Beside.shows {n : Nat} {x : Scene Model} {c : Course Model} (beside : Beside n x c)
    (sessions : x.sessions = c.world) (held : ∀ job, c.scheduler.job? n = some job → job = .held)
    (underway : ∀ f, x.flight? n = some f → f.run.isEnded = false) : Shows x c where
  sessions := sessions
  scheduler := beside.scheduler
  held k job found := by
    by_cases here : k = n
    · exact held job (here ▸ found)
    · exact beside.held k here job found
  underway k f found := by
    by_cases here : k = n
    · exact underway f (here ▸ found)
    · exact beside.underway k here f found
  signalled := beside.signalled

/-- A workplace whose clock has been read. -/
def clocked (w : Workplace Model) : Workplace Model :=
  { w with desk := (Desk.now w.desk).world }

theorem keepsWays_clocked : KeepsWays (clocked : Workplace Model → Workplace Model) :=
  fun _ => ⟨rfl, rfl⟩

theorem phase_of_result {r : Run} {result : Except Failure String} (ended : r.isEnded = true)
    (came : Engine.result r = result) : r.phase = .ended result := by
  unfold Run.isEnded at ended
  unfold Engine.result at came
  cases phase : r.phase with
  | ended =>
    rw [phase] at came
    exact congrArg Run.Phase.ended came
  | asking | performing => simp [phase] at ended

/-- What is given up is not remembered. -/
theorem remember_cancelled (e : Engine (Workplace Model)) {r : Run}
    (cancelled : Engine.result r = .error .cancelled) (histories : Table (List Message)) :
    e.remember r histories = histories := by
  rw [Engine.remember, cancelled]
  rfl

theorem result_cancel {r : Run} (underway : r.isEnded = false) :
    Engine.result r.cancel = .error .cancelled := by
  unfold Run.cancel
  cases phase : r.phase with
  | ended => simp [Run.isEnded, phase] at underway
  | asking | performing => rfl

section

variable {s : Service} {ask : Asking Model} {x : Scene Model} {c : Course Model} {n : Nat}
  {down : Bool}

theorem maker?_ne {k : Nat} (other : k ≠ n) {Job : Type} {m : Scheduler.Move Job}
    (made : m.maker? = some n) : m.maker? ≠ some k := by
  rw [made]
  exact fun same => other (Option.some.inj same).symm

/-- A move of one loop leaves what is shown beside it. -/
theorem Beside.made {y : Scene Model} {m : Scheduler.Move Job} {w : Sessions (Workplace Model)}
    (beside : Beside n x c) (maker : m.maker? = some n)
    (outline : y.scheduler.outline = (m.next c.scheduler).outline)
    (others : ∀ k, k ≠ n → y.flight? k = x.flight? k)
    (unheard : w.world.signalled = true → c.world.world.signalled = true) :
    Beside n y { c with scheduler := m.next c.scheduler, world := w } := by
  refine ⟨outline, fun k other job => ?_, fun k other f => ?_, fun signalled => ?_⟩
  · rw [Scheduler.job?_of_not_maker (maker?_ne other maker)]
    exact beside.held k other job
  · rw [others k other]
    exact beside.underway k other f
  · exact (Scheduler.next_of_maker maker c.scheduler).2.1.trans
      (beside.signalled (unheard signalled))

/-- The end of a run, once it has come to its end. -/
theorem shows_ended (down : Bool) {f : Flight} (beside : Beside n x c)
    (found : x.flight? n = some f) (ended : f.run.isEnded = true)
    (sessions : { x.sessions with
      histories := (s.engine ask).remember f.run x.sessions.histories } = c.world) :
    ∃ y, Leads s down x y ∧ Shows y
      { c with
        scheduler := (Scheduler.Move.endRun n ((s.surroundings ask).clock c.world).result
          (Engine.result f.run)).next c.scheduler
        world := ((s.surroundings ask).clock c.world).world } := by
  let x₁ := (Move.elsewhere clocked keepsWays_clocked).next s x
  let moment := ((s.surroundings ask).clock c.world).result
  have next := next_endRun (s := s) (x := x₁) found ended moment
  refine ⟨_, (Leads.one (m := .elsewhere clocked keepsWays_clocked) trivial).trans
    (Leads.one (m := .endRun n moment) trivial), ?_⟩
  have others : ∀ k, k ≠ n → ((Move.endRun n moment).next s x₁).flight? k = x.flight? k := by
    intro k other
    rw [next]
    exact Scheduler.job?_of_not_maker (maker?_ne other rfl) x.scheduler
  have here : ((Move.endRun n moment).next s x₁).flight? n = none := by
    rw [next]
    exact Scheduler.job?_endRun x.scheduler n moment _
  have outline : ((Move.endRun n moment).next s x₁).scheduler.outline =
      ((Scheduler.Move.endRun n moment (Engine.result f.run)).next c.scheduler).outline := by
    rw [next]
    exact Scheduler.next_outline beside.scheduler rfl
  have beside' :=
    beside.made (w := ((s.surroundings ask).clock c.world).world) rfl outline others id
  refine beside'.shows ?_ (fun job => ?_) (fun g => ?_)
  · rw [next, ← sessions]
    rfl
  · rw [Scheduler.job?_endRun]
    exact fun found => by cases found
  · rw [here]
    exact fun found => by cases found

/-- A run that waits for the end of everything is given up when it has come. -/
theorem shows_conclude (ask : Asking Model) (shows_ : Shows x c) (n : Nat) :
    ∃ y, Leads s c.scheduler.shutDown x y ∧
      Shows y (Timeline.conclude (s.surroundings ask) n c).world := by
  rw [Timeline.conclude_world]
  cases job : c.scheduler.job? n with
  | none => exact ⟨x, .refl s _ x, shows_⟩
  | some j =>
    obtain rfl := shows_.held n j job
    cases down : c.scheduler.shutDown with
    | false => exact ⟨x, .refl s _ x, shows_⟩
    | true =>
      have inFlight : (x.flight? n).isSome = true := by
        rw [Scene.flight?, Scheduler.isSome_job?_outline shows_.scheduler, job]
        rfl
      obtain ⟨f, found⟩ := Option.isSome_iff_exists.mp inFlight
      have underway := shows_.underway n f found
      have shut : x.scheduler.shutDown = true :=
        (Scheduler.shutDown_outline shows_.scheduler).trans down
      obtain ⟨outline, flight, others⟩ :=
        next_of_proceed found (onScheduler_interrupt (s := s) shut found)
      have beside : Beside n ((Move.interrupt n).next s x) c :=
        ⟨outline.trans shows_.scheduler, fun k _ => shows_.held k,
          fun k other f there => shows_.underway k f ((others k other).symm.trans there),
          shows_.signalled⟩
      have cancelled : Engine.result f.interrupt.run = .error .cancelled := result_cancel underway
      have sessions : { ((Move.interrupt n).next s x).sessions with
          histories := (s.engine ask).remember f.interrupt.run
            ((Move.interrupt n).next s x).sessions.histories } = c.world := by
        rw [remember_cancelled _ cancelled]
        exact shows_.sessions
      obtain ⟨y, leads, shows'⟩ := shows_ended true beside flight
        (isEnded_cancel f.run) sessions
      rw [cancelled] at shows'
      exact ⟨y, (Leads.one (m := .interrupt n) trivial).trans leads, shows'⟩

/-- A loop goes if it was told to. -/
theorem shows_leave (shows_ : Shows x c) (n : Nat) :
    ∃ y, Leads s c.scheduler.shutDown x y ∧
      Shows y { c with scheduler := (Scheduler.Move.leave n).next c.scheduler } := by
  have jobs : ∀ {Job : Type} (t : Scheduler Job) k,
      ((Scheduler.Move.leave n).next t).job? k = t.job? k := by
    intro Job t k
    by_cases here : k = n
    · rw [here, Scheduler.job?_leave]
    · exact Scheduler.job?_of_not_maker (maker?_ne here rfl) t
  refine ⟨_, Leads.one (m := .leave n) trivial, shows_.sessions,
    Scheduler.next_outline shows_.scheduler rfl, fun k job => ?_, fun k f found => ?_,
    fun signalled => ?_⟩
  · rw [jobs]
    exact shows_.held k job
  · exact shows_.underway k f ((jobs x.scheduler k).symm.trans found)
  · exact (Scheduler.next_of_maker (m := .leave n) rfl c.scheduler).2.1.trans
      (shows_.signalled signalled)

/-- The run with which the engine takes up the call of an activity. -/
def runFor (s : Service) (ask : Asking Model) (a : Activity) (v : Sessions (Workplace Model)) :
    Run :=
  (s.engine ask).runOf (call a).prompt (call a).channel (call a).session v

/-- After everything was shut down the engine gives a run up at once. -/
theorem answer_of_shutDown (s : Service) (ask : Asking Model) (down : c.scheduler.shutDown = true)
    (n : Nat) (a : Activity) :
    (Timeline.answerTo (s.surroundings ask) n a c).result = ⟨0, ending (.error .cancelled)⟩ ∧
      (Timeline.answerTo (s.surroundings ask) n a c).world =
        (Timeline.askedFor (s.surroundings ask) n a c).world := by
  let e : Engine (Workplace Model) := { s.engine ask with cancelled := fun _ => true }
  have engine : (if c.scheduler.shutDown = true then e else s.engine ask) = e := if_pos down
  obtain ⟨process, -⟩ := e.process_cancelled (call a).prompt (call a).channel (call a).session
    (s := (Timeline.askedFor (s.surroundings ask) n a c).world) rfl
  have answered : ∀ e', e' = e →
      (e'.process (call a).prompt (call a).channel (call a).session
        (Timeline.askedFor (s.surroundings ask) n a c).world) =
        ⟨.error .cancelled, (Timeline.askedFor (s.surroundings ask) n a c).world, []⟩ := by
    rintro _ rfl
    exact process
  have given := answered _ engine
  exact ⟨congrArg (fun d : Act.Done _ _ => (⟨0, ending d.result⟩ : Plan)) given,
    congrArg Act.Done.world given⟩

/-- Otherwise the engine takes the run as far as it comes. -/
theorem answer_of_going (s : Service) (ask : Asking Model) (going : c.scheduler.shutDown = false)
    (unsignalled : c.world.world.signalled = false) (n : Nat) (a : Activity) :
    let asked := (Timeline.askedFor (s.surroundings ask) n a c).world
    let last := (s.engine ask).finish (s.runFor ask a asked) asked.world
    (Timeline.answerTo (s.surroundings ask) n a c).result =
        ⟨0, ending (Engine.result last.result)⟩ ∧
      (Timeline.answerTo (s.surroundings ask) n a c).world =
        ⟨(s.engine ask).remember last.result asked.histories, last.world⟩ := by
  intro asked last
  have begins : ¬ (s.engine ask).cancelled asked.world = true := by
    have same : (s.engine ask).cancelled asked.world = c.world.world.signalled := rfl
    simp [same, unsignalled]
  obtain ⟨result, world, -⟩ := (s.engine ask).process_begun (call a).prompt (call a).channel
    (call a).session begins rfl
  have answered : ∀ e', e' = s.engine ask →
      ending (e'.process (call a).prompt (call a).channel (call a).session asked).result =
          ending (Engine.result last.result) ∧
        (e'.process (call a).prompt (call a).channel (call a).session asked).world =
          ⟨(s.engine ask).remember last.result asked.histories, last.world⟩ := by
    rintro _ rfl
    exact ⟨congrArg ending result, world⟩
  obtain ⟨ends, left⟩ := answered (if c.scheduler.shutDown = true then
    { s.engine ask with cancelled := fun _ => true } else s.engine ask) (if_neg (by simp [going]))
  exact ⟨congrArg (Plan.mk 0) ends, left⟩

/-- The engine takes a run in flight to its end, or the run waits for a silent model. -/
theorem leads_finish (only : AsksOnly ask) {a : Activity}
    (found : x.flight? n = some ⟨s.runFor ask a x.sessions, none⟩)
    (unsignalled : x.sessions.world.signalled = false) :
    ∃ y, Leads s false x y ∧
      Taken x n ((s.engine ask).finish (s.runFor ask a x.sessions) x.sessions.world).result
        ((s.engine ask).finish (s.runFor ask a x.sessions) x.sessions.world).world y ∧
      ((s.engine ask).finish (s.runFor ask a x.sessions) x.sessions.world).result.isEnded =
        true := by
  obtain ⟨y, leads, taken⟩ := leads_advances (s := s) only _ found rfl unsignalled
  exact ⟨y, leads, taken, (s.engine ask).isEnded_finish _ _ _ (by omega) _ _⟩

/-- A course in which the engine has answered to a run that began. -/
def answered (n : Nat) (plan : Plan) (w : Sessions (Workplace Model)) (t : Course Model) :
    Course Model :=
  { t with
    scheduler := (Scheduler.Move.proceed n (.working (t.now + plan.work) plan.ending)).next
      (if w.world.signalled then Scheduler.Move.shutdown.next t.scheduler else t.scheduler)
    world := w }

theorem begin_answered {l : Loop Job} {time : Nat} (found : c.scheduler.loops[n]? = some l)
    (due : l.dueAfter? c.now = some time) :
    (Timeline.begin (s.surroundings ask) n c).world =
      answered n (Timeline.answerTo (s.surroundings ask) n l.activity c).result
        (Timeline.answerTo (s.surroundings ask) n l.activity c).world
        (Timeline.askedFor (s.surroundings ask) n l.activity c) :=
  Timeline.begin_world (s.surroundings ask) found due

/-- A scene that has come as far as the engine shows what it has answered. -/
theorem Beside.answered {y : Scene Model} {t : Course Model} (beside : Beside n x t) (plan : Plan)
    {w : Sessions (Workplace Model)}
    (outline : y.scheduler.outline =
      if w.world.signalled then Scheduler.Move.shutdown.next x.scheduler.outline
      else x.scheduler.outline)
    (others : ∀ k, k ≠ n → y.flight? k = x.flight? k) : Beside n y (answered n plan w t) := by
  refine ⟨?_, fun k other job => ?_, fun k other f => ?_, fun signalled => ?_⟩
  · show y.scheduler.outline = (Scheduler.Move.next _ _).outline
    rw [Scheduler.proceed_outline, outline, beside.scheduler]
    split <;> rfl
  · show (Scheduler.Move.next _ _).job? k = some job → _
    rw [Scheduler.job?_of_not_maker (maker?_ne other rfl)]
    split
    · exact beside.held k other job
    · exact beside.held k other job
  · rw [others k other]
    exact beside.underway k other f
  · have given : w.world.signalled = true := signalled
    refine (Scheduler.next_of_maker (m := .proceed n _) rfl _).2.1.trans ?_
    rw [if_pos given]
    rfl

theorem job?_answered {t : Course Model} {job : Job} (busy : t.scheduler.job? n = some job)
    (plan : Plan) (w : Sessions (Workplace Model)) :
    (answered n plan w t).scheduler.job? n =
      some (.working (t.now + plan.work) plan.ending) := by
  show (Scheduler.Move.next _ _).job? n = _
  rw [Scheduler.job?_proceed]
  split
  · exact congrArg (Option.map fun _ => _) busy
  · exact congrArg (Option.map fun _ => _) busy

theorem shutDown_answered (n : Nat) (plan : Plan) (w : Sessions (Workplace Model))
    (t : Course Model) : (answered n plan w t).scheduler.shutDown =
      (w.world.signalled || t.scheduler.shutDown) := by
  refine (Scheduler.next_of_maker (m := .proceed n _) rfl _).2.1.trans ?_
  cases w.world.signalled <;> rfl

/-- A run that has come to its end: it has ended by itself, or everything was shut down. -/
theorem shows_result (down : Bool) {y : Scene Model} {t : Course Model} {f : Flight} {job : Job}
    {w : Sessions (Workplace Model)} (busy : t.scheduler.job? n = some job)
    (beside : Beside n y (answered n ⟨0, ending (Engine.result f.run)⟩ w t))
    (found : y.flight? n = some f) (ended : f.run.isEnded = true)
    (sessions : { y.sessions with
      histories := (s.engine ask).remember f.run y.sessions.histories } = w)
    (shut : Engine.result f.run = .error .cancelled →
      (w.world.signalled || t.scheduler.shutDown) = true) :
    ∃ z, Leads s down y z ∧ Shows z (Timeline.conclude (s.surroundings ask) n
      (answered n ⟨0, ending (Engine.result f.run)⟩ w t)).world := by
  have concluded : ∀ result, (result = .error .cancelled →
      (w.world.signalled || t.scheduler.shutDown) = true) →
      (Timeline.conclude (s.surroundings ask) n (answered n ⟨0, ending result⟩ w t)).world =
        { answered n ⟨0, ending result⟩ w t with
          scheduler := (Scheduler.Move.endRun n ((s.surroundings ask).clock w).result
            result).next (answered n ⟨0, ending result⟩ w t).scheduler
          world := ((s.surroundings ask).clock w).world } := by
    intro result shut
    rw [Timeline.conclude_world, job?_answered busy]
    have due : ¬ (answered n ⟨0, ending result⟩ w t).now < t.now + 0 := Nat.lt_irrefl t.now
    simp only [due, if_false, shutDown_answered]
    by_cases cancelled : result = .error .cancelled
    · subst cancelled
      simp only [ending, shut rfl, if_true]
      rfl
    · have returns : ending result = .returns result := by
        unfold ending
        split
        · exact absurd rfl cancelled
        · rfl
      rw [returns]
      rfl
  rw [concluded _ shut]
  exact shows_ended down beside found ended sessions

/-- A run whose model stays silent. -/
theorem shows_silence {y : Scene Model} {t : Course Model} {f : Flight} {job : Job}
    {w : Sessions (Workplace Model)} (busy : t.scheduler.job? n = some job)
    (beside : Beside n y (answered n ⟨0, ending (.error .cancelled)⟩ w t))
    (found : y.flight? n = some f) (underway : f.run.isEnded = false) (sessions : y.sessions = w)
    (going : (w.world.signalled || t.scheduler.shutDown) = false) :
    Shows y (Timeline.conclude (s.surroundings ask) n
      (answered n ⟨0, ending (.error .cancelled)⟩ w t)).world := by
  have due : ¬ (answered n ⟨0, ending (.error .cancelled)⟩ w t).now < t.now + 0 :=
    Nat.lt_irrefl t.now
  rw [Timeline.conclude_world, job?_answered busy]
  simp only [due, if_false]
  simp only [ending, shutDown_answered, going, Bool.false_eq_true, if_false]
  have outline : y.scheduler.outline = ((Scheduler.Move.proceed n Job.held).next
      (answered n ⟨0, ending (.error .cancelled)⟩ w t).scheduler).outline := by
    rw [Scheduler.proceed_outline]
    exact beside.scheduler
  refine (beside.made rfl outline (fun _ _ => rfl) id).shows sessions (fun job => ?_)
    fun g there => ?_
  · rw [Scheduler.job?_proceed]
    exact fun held => by
      obtain ⟨_, _, rfl⟩ := Option.map_eq_some_iff.mp held
      rfl
  · rw [found] at there
    cases there
    exact underway

/-- A run begins in the scene as it does in the course. -/
theorem leads_begun (s : Service) (ask : Asking Model) (shows_ : Shows x c) {l : Loop Job}
    {time : Nat} (found : c.scheduler.loops[n]? = some l) (due : l.dueAfter? c.now = some time) :
    ∃ y, (∀ down, Leads s down x y) ∧
      y.sessions = (Timeline.askedFor (s.surroundings ask) n l.activity c).world ∧
      Beside n y (Timeline.askedFor (s.surroundings ask) n l.activity c) ∧
      y.flight? n = some
        ⟨if c.scheduler.shutDown then (s.runFor ask l.activity y.sessions).cancel
          else s.runFor ask l.activity y.sessions, none⟩ := by
  let moment := ((s.surroundings ask).clock c.world).result
  let x₁ := (Move.elsewhere clocked keepsWays_clocked).next s x
  let y := (Move.beginRun n c.now moment).next s x₁
  obtain ⟨l', found', activity, _, due'⟩ := Scheduler.loop_outline shows_.scheduler.symm found
  have begins : Move.onScheduler s x₁ (.beginRun n c.now moment) =
      some (.beginRun n c.now moment (s.flight x₁ l'.activity)) := by
    have there : x₁.scheduler.loops[n]? = some l' := found'
    simp [Move.onScheduler, there]
  have moved : y.scheduler =
      (Scheduler.Move.beginRun n c.now moment (s.flight x₁ l'.activity)).next x.scheduler :=
    scheduler_of_move begins
  have sessions : y.sessions = (Timeline.askedFor (s.surroundings ask) n l.activity c).world := by
    show { x.sessions with world := clocked x.sessions.world } = _
    rw [shows_.sessions]
    rfl
  refine ⟨y, fun down => (Leads.one (m := .elsewhere clocked keepsWays_clocked) trivial).trans
    (Leads.one (m := .beginRun n c.now moment) trivial), sessions, ?_, ?_⟩
  · refine (shows_.beside n).made (m := .beginRun n c.now moment (.asked (call l.activity))) rfl ?_
      (fun k other => ?_) id
    · rw [moved]
      exact Scheduler.next_outline shows_.scheduler rfl
    · rw [Scene.flight?, moved]
      exact Scheduler.job?_of_not_maker (maker?_ne other rfl) x.scheduler
  · rw [Scene.flight?, moved, Scheduler.job?_beginRun_of_due found' ((due' c.now).trans due)]
    have down : x₁.scheduler.shutDown = c.scheduler.shutDown :=
      Scheduler.shutDown_outline shows_.scheduler
    unfold flight
    rw [down, activity]
    rfl

/-- **A run that begins** is handed to the engine, and comes to its end or is held. -/
theorem shows_begun (only : AsksOnly ask) (shows_ : Shows x c) (n : Nat) :
    ∃ y, Leads s c.scheduler.shutDown x y ∧ Shows y (Timeline.conclude (s.surroundings ask) n
      (Timeline.begin (s.surroundings ask) n c).world).world := by
  by_cases isDue : ∃ l time, c.scheduler.loops[n]? = some l ∧ l.dueAfter? c.now = some time
  case neg =>
    have undue : ∀ l, c.scheduler.loops[n]? = some l → l.dueAfter? c.now = none := by
      intro l found
      by_contra some
      obtain ⟨time, some⟩ := Option.ne_none_iff_exists'.mp some
      exact isDue ⟨l, time, found, some⟩
    rw [Timeline.begin_of_undue _ undue]
    exact shows_conclude ask shows_ n
  case pos =>
    obtain ⟨l, time, found, due⟩ := isDue
    obtain ⟨x₁, leads₁, sessions₁, beside₁, flight₁⟩ := leads_begun s ask
      shows_ found due
    have busy := Scheduler.job?_beginRun_of_due found due
      ((s.surroundings ask).clock c.world).result (.asked (call l.activity))
    have shut : (Timeline.askedFor (s.surroundings ask) n l.activity c).scheduler.shutDown =
        c.scheduler.shutDown :=
      (Scheduler.next_of_maker (m := .beginRun n _ _ _) rfl c.scheduler).2.1
    rw [begin_answered found due]
    cases down : c.scheduler.shutDown with
    | true =>
      obtain ⟨result, world⟩ := answer_of_shutDown s ask down n l.activity
      rw [result, world, ← sessions₁]
      rw [down, if_pos rfl] at flight₁
      have cancelled : Engine.result (s.runFor ask l.activity x₁.sessions).cancel =
          .error .cancelled := result_cancel rfl
      have already : Scheduler.Move.shutdown.next x₁.scheduler.outline = x₁.scheduler.outline := by
        have down₁ : x₁.scheduler.outline.shutDown = true :=
          (Scheduler.shutDown_outline beside₁.scheduler).trans (shut.trans down)
        show { x₁.scheduler.outline with shutDown := true } = x₁.scheduler.outline
        rw [← down₁]
      have beside := beside₁.answered (y := x₁) ⟨0, ending (.error .cancelled)⟩ (w := x₁.sessions)
        (by rw [already, ite_self]) fun _ _ => rfl
      rw [← cancelled] at beside ⊢
      obtain ⟨y, leads, shows'⟩ := shows_result true busy beside
        flight₁ (isEnded_cancel (s.runFor ask l.activity x₁.sessions))
        (by rw [remember_cancelled _ cancelled]) fun _ => by rw [shut, down, Bool.or_true]
      exact ⟨y, (leads₁ true).trans leads, shows'⟩
    | false =>
      have unsignalled : c.world.world.signalled = false := by
        cases signalled : c.world.world.signalled with
        | false => rfl
        | true => exact absurd (shows_.signalled signalled) (by simp [down])
      obtain ⟨result, world⟩ := answer_of_going s ask down unsignalled n l.activity
      rw [result, world, ← sessions₁]
      rw [down, if_neg (by simp)] at flight₁
      have unsignalled₁ : x₁.sessions.world.signalled = false := by
        rw [sessions₁]
        exact unsignalled
      obtain ⟨y, leads, taken, ended⟩ := leads_finish (s := s) only flight₁ unsignalled₁
      generalize (s.engine ask).finish (s.runFor ask l.activity x₁.sessions)
        x₁.sessions.world = last at ended taken ⊢
      have beside := beside₁.answered ⟨0, ending (Engine.result last.result)⟩
        (w := ⟨(s.engine ask).remember last.result x₁.sessions.histories, last.world⟩)
        taken.scheduler taken.others
      obtain ⟨f, flight, ⟨same, given⟩ | ⟨underway, same, silent⟩⟩ := taken.flight
      · rw [← same] at ended beside given ⊢
        obtain ⟨z, leads', shows'⟩ := shows_result false busy beside
          flight ended (by rw [taken.sessions]) fun cancelled => by
            rw [given (phase_of_result ended cancelled), Bool.true_or]
        exact ⟨z, ((leads₁ false).trans leads).trans leads', shows'⟩
      · have cancelled : Engine.result last.result = .error .cancelled := by
          rw [← same]
          exact result_cancel underway
        rw [cancelled] at beside ⊢
        exact ⟨y, (leads₁ false).trans leads, shows_silence busy beside flight underway
          (by rw [remember_cancelled _ cancelled, taken.sessions])
          (by rw [silent, shut, down]; rfl)⟩

end

/-! ## The course of time -/

/-- Moves of loops lead from a scene to one that shows a course; if everything was shut down in
the one, it is in the other. -/
structure Reaches (s : Service) (down : Bool) (x : Scene Model) (c : Course Model) : Prop where
  shut : down = true → c.scheduler.shutDown = true
  shown : ∃ y, Leads s down x y ∧ Shows y c

section

variable {s : Service} {ask : Asking Model} {x : Scene Model} {c c' : Course Model} {down : Bool}

theorem Reaches.go (reaches : Reaches s down x c)
    (step : ∀ y, Shows y c → ∃ z, Leads s c.scheduler.shutDown y z ∧ Shows z c') :
    Reaches s down x c' := by
  obtain ⟨y, leads, shows_⟩ := reaches.shown
  obtain ⟨z, leads', shows'⟩ := step y shows_
  refine ⟨fun isDown => ?_, z, leads.trans (leads'.mono reaches.shut), shows'⟩
  have downY := (Scheduler.shutDown_outline shows_.scheduler).trans (reaches.shut isDown)
  exact (Scheduler.shutDown_outline shows'.scheduler).symm.trans (leads'.shutDown downY)

/-- **The turn of a loop.** -/
theorem reaches_turn (only : AsksOnly ask) (n : Nat) (reaches : Reaches s down x c) :
    Reaches s down x (Timeline.turn (s.surroundings ask) n c).world := by
  have closed : ∀ {c : Course Model}, Reaches s down x c →
      Reaches s down x { c with scheduler := (Scheduler.Move.leave n).next c.scheduler } :=
    fun reaches => reaches.go fun _ shows_ => shows_leave shows_ n
  have concluded := closed (reaches.go fun _ shows_ => shows_conclude ask shows_ n)
  have begun := closed (concluded.go fun _ shows_ => shows_begun only shows_ n)
  obtain ⟨shut, y, leads, shows_⟩ := begun
  exact ⟨shut, y, leads, shows_.sessions, shows_.scheduler, shows_.held, shows_.underway,
    shows_.signalled⟩

/-- **Whatever happens in the course of time** consists of moves of loops. -/
theorem lasting_reaches (s : Service) (only : AsksOnly ask) (down : Bool) (x : Scene Model) :
    Timeline.Lasting (s.surroundings ask) (Reaches s down x) (Reaches s down x) :=
  .of_turn (fun n _ => reaches_turn only n) fun _ _ _ reaches =>
    ⟨reaches.shut, reaches.shown.imp fun _ shown => ⟨shown.1, shown.2.sessions, shown.2.scheduler,
      shown.2.held, shown.2.underway, shown.2.signalled⟩⟩

end

end TriageDesk.Service
