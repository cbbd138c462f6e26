/-
TriageDesk.Proofs.Agent.Course — what happens to a run, wait by wait, and what
it says meanwhile.

A run waits for the model or for a call, and a `Happening` ends each wait.
`Step` lists all that one happening can do to a run; `Course` is a run that
goes from one step to the next. An engine supplies the happenings:

* `advance_step` — one advance of an engine is one step;
* `advances_course` — so its run is a course of the happenings of its waits;
* `isEnded_finish` — and the engine lets enough things happen to end the run.

Whatever is true of courses is then true of runs of engines. `Course.told` is
the main one: the happenings alone tell which messages a run adds to its
conversation and how it ends.

What a run says is written out in `Turn.messages`: the observation of a call in
each of the ways in which it can come out (`Upshot`), and the request to repeat a
call that cannot be read. That a run says no other words is `step_hear` and
`step_observe`.

For the world around a run there is `process_relates`: what holds across
each question and across each call holds across a whole piece of reasoning.
-/
import TriageDesk.Agent.Engine

namespace TriageDesk.Agent

/-! ## Happenings and what they say -/

/-- How a call comes out. -/
inductive Upshot
  /-- It returned in time, and shows a text. -/
  | shown (text : String)
  /-- It returned in time, and had failed. -/
  | failed (reason : String)
  /-- It had not returned at its limit of time. -/
  | late

/-- How a call comes out that has a limit of time. -/
def upshot (limit : Nat) : Tool.Outcome → Upshot
  | .returned after (.ok text) => if after ≤ limit then .shown text else .late
  | .returned after (.error reason) => if after ≤ limit then .failed reason else .late
  | .hangs => .late

/-- What the model is told of a call of a tool that has come out. -/
def Upshot.words (tool : String) : Upshot → String
  | .shown text => text
  | .failed reason => "Error: Tool execution failed: " ++ reason
  | .late => "Error: Tool timeout: " ++ tool

/-- How a wait of a run ends. -/
inductive Happening
  /-- The model replied, or failed. -/
  | heard (reply : Except String String)
  /-- The call came out. -/
  | observed (upshot : Upshot)
  /-- The wait was given up. -/
  | interrupted

/-- A step that did not end its run by itself. -/
inductive Turn
  /-- The model called a tool, and the call came out. -/
  | called (output : String) (c : Call) (upshot : Upshot)
  /-- The model meant to call a tool, but the call could not be read. -/
  | misread (output reason : String)

/-- The two messages of a step: the words of the model, and what it is told in return. -/
def Turn.messages : Turn → List Message
  | .called output c upshot =>
    [⟨.assistant, output⟩, ⟨.user, "Observation from " ++ c.tool ++ ": " ++ upshot.words c.tool⟩]
  | .misread output reason =>
    [⟨.assistant, output⟩,
      ⟨.user, "Your previous output was not valid JSON: " ++ reason ++ ". " ++
        "When calling a tool, output exactly one JSON object and nothing else, " ++
        "in the form \x7b\"tool\": \"tool_name\", \"args\": \x7b...\x7d\x7d. " ++
        "When you are done, reply with plain text only."⟩]

/-- The steps in a list of happenings, where a call may be under way already. -/
def turns : Option (Call × String) → List Happening → List Turn
  | none, .heard (.ok output) :: rest =>
    match Reply.read output with
    | .ok (.call c) => turns (some (c, output)) rest
    | .ok (.answer _) => turns none rest
    | .error reason => .misread output reason :: turns none rest
  | some (c, output), .observed upshot :: rest => .called output c upshot :: turns none rest
  | _, _ :: rest => turns none rest
  | _, [] => []

@[simp] theorem turns_nil (pending : Option (Call × String)) : turns pending [] = [] := by
  cases pending <;> simp [turns]

@[simp] theorem turns_interrupted (pending : Option (Call × String)) (hs : List Happening) :
    turns pending (.interrupted :: hs) = turns none hs := by
  cases pending <;> simp [turns]

/-- The last message of a run with a result: its answer, if it has one. -/
def answer : Except Failure String → List Message
  | .ok text => [⟨.assistant, text⟩]
  | .error _ => []

/-- What the happenings of a run must be for its result: it has `left` of its
`limit` steps still before it. -/
def Justified (limit left : Nat) (steps : List Turn) (hs : List Happening) :
    Except Failure String → Prop
  | .ok text =>
    (∃ output, hs.getLast? = some (.heard (.ok output)) ∧ Reply.read output = .ok (.answer text)) ∧
      steps.length < left
  | .error (.tooManySteps n) => n = limit ∧ steps.length = left
  | .error (.modelFailed reason) =>
    hs.getLast? = some (.heard (.error reason)) ∧ steps.length < left
  | .error .cancelled => hs.getLast? = some .interrupted
  | .error _ => False

/-! ## Steps -/

namespace Run

/-- Whether a run has ended. -/
def isEnded (r : Run) : Bool :=
  match r.phase with
  | .ended _ => true
  | _ => false

/-- The call that is under way in a run, with the words in which it was made. -/
def pending? (r : Run) : Option (Call × String) :=
  match r.phase with
  | .performing c output => some (c, output)
  | _ => none

/-- How many things can still happen to a run. -/
def waitsLeft (r : Run) : Nat :=
  match r.phase with
  | .asking => 2 * (r.limit - r.step)
  | .performing _ _ => 2 * (r.limit - r.step) - 1
  | .ended _ => 0

/-- What one happening can do to a run. -/
inductive Step (r : Run) : Happening → Run → Prop
  | failed {reason : String} (waits : r.phase = .asking) :
    Step r (.heard (.error reason)) { r with phase := .ended (.error (.modelFailed reason)) }
  | answered {output text : String} (waits : r.phase = .asking)
      (read : Reply.read output = .ok (.answer text)) :
    Step r (.heard (.ok output))
      { r with
        conversation := r.conversation ++ [⟨.assistant, text⟩]
        phase := .ended (.ok text) }
  | called {output : String} {c : Call} (waits : r.phase = .asking)
      (read : Reply.read output = .ok (.call c)) :
    Step r (.heard (.ok output)) { r with phase := .performing c output }
  | misread {output reason : String} (waits : r.phase = .asking)
      (read : Reply.read output = .error reason) :
    Step r (.heard (.ok output)) (r.next (Turn.misread output reason).messages)
  | observed {output : String} {c : Call} {upshot : Upshot}
      (waits : r.phase = .performing c output) :
    Step r (.observed upshot) (r.next (Turn.called output c upshot).messages)
  | interrupted (waits : r.isEnded = false) :
    Step r .interrupted { r with phase := .ended (.error .cancelled) }

/-- A run that goes on through some happenings. -/
inductive Course : Run → List Happening → Run → Prop
  | stay (r : Run) : Course r [] r
  | go {r m last : Run} {h : Happening} {hs : List Happening} (step : Step r h m)
      (rest : Course m hs last) : Course r (h :: hs) last

/-- A call that cannot be read is answered with the words of its step. -/
theorem messages_misread (output reason : String) :
    [⟨.assistant, output⟩, ⟨.user, retryPrompt reason⟩] = (Turn.misread output reason).messages :=
  rfl

theorem observation_failed (reason tool : String) :
    observation (.error (.toolFailed reason)) = (Upshot.failed reason).words tool := by
  have start : "Error: " ++ "Tool execution failed: " = "Error: Tool execution failed: " := by decide
  show "Error: " ++ ("Tool execution failed: " ++ reason) = _
  rw [← String.append_assoc, start]
  rfl

theorem observation_late (tool : String) :
    observation (.error (.toolTimedOut tool)) = Upshot.late.words tool := by
  have start : "Error: " ++ "Tool timeout: " = "Error: Tool timeout: " := by decide
  show "Error: " ++ ("Tool timeout: " ++ tool) = _
  rw [← String.append_assoc, start]
  rfl

/-- What a call has come to is told in the words for how it has come out. -/
theorem observation_result (limit : Nat) (tool : String) (outcome : Tool.Outcome) :
    observation (Executor.result limit tool outcome) = (upshot limit outcome).words tool := by
  cases outcome with
  | hangs => exact observation_late tool
  | returned after result =>
    by_cases late : limit < after
    · have exceeded := Nat.not_le.mpr late
      cases result <;> simp only [Executor.result, upshot, late, exceeded, if_true, if_false,
        observation_late]
    · have inTime := Nat.le_of_not_lt late
      cases result with
      | ok text => simp only [Executor.result, upshot, late, inTime, if_true, if_false]; rfl
      | error reason =>
        simp only [Executor.result, upshot, late, inTime, if_true, if_false]
        exact observation_failed reason tool

/-- A reply makes a step of a run that waits for one. -/
theorem step_hear {r : Run} (waits : r.phase = .asking) (reply : Except String String) :
    Step r (.heard reply) (r.hear reply).1 := by
  cases reply with
  | error reason => exact .failed waits
  | ok output =>
    cases read : Reply.read output with
    | error reason =>
      simp only [hear, read, messages_misread]
      exact .misread waits read
    | ok reply =>
      cases reply with
      | answer text =>
        simp only [hear, read]
        exact .answered waits read
      | call c =>
        simp only [hear, read]
        exact .called waits read

/-- The end of a call makes a step of a run that waits for it. -/
theorem step_observe {r : Run} {c : Call} {output : String} (waits : r.phase = .performing c output)
    (limit : Nat) (outcome : Tool.Outcome) :
    Step r (.observed (upshot limit outcome))
      (r.observe c output (Executor.result limit c.tool outcome)).1 := by
  have said : [⟨.assistant, output⟩, ⟨.user, s!"Observation from {c.tool}: {observation
      (Executor.result limit c.tool outcome)}"⟩] =
        (Turn.called output c (upshot limit outcome)).messages := by
    simp [Turn.messages, observation_result, toString]
  unfold observe
  simp only [said]
  exact .observed waits

theorem step_cancel {r : Run} (waits : r.isEnded = false) : Step r .interrupted r.cancel := by
  have h : r.cancel = { r with phase := .ended (.error .cancelled) } := by
    unfold isEnded at waits
    unfold cancel
    cases hp : r.phase <;> simp [hp] at waits ⊢
  rw [h]
  exact .interrupted waits

/-- No step leads on from a run that has ended. -/
theorem Step.underway {r m : Run} {h : Happening} (step : Step r h m) : r.isEnded = false := by
  cases step with
  | interrupted waits => exact waits
  | failed waits | answered waits _ | called waits _ | misread waits _ | observed waits =>
    simp [isEnded, waits]

theorem Course.of_ended {r last : Run} {hs : List Happening} (course : Course r hs last)
    (ended : r.isEnded = true) : hs = [] ∧ last = r := by
  cases course with
  | stay => exact ⟨rfl, rfl⟩
  | go step _ =>
    rw [step.underway] at ended
    cases ended

/-- The rest of a course has no happenings where the step before ended the run. -/
theorem Course.after_next {r last : Run} {said : List Message} {hs : List Happening}
    (course : Course (r.next said) hs last) :
    (r.step + 1 < r.limit ∧ (r.next said).phase = .asking) ∨
      (r.limit ≤ r.step + 1 ∧ hs = [] ∧ last = r.next said ∧
        last.phase = .ended (.error (.tooManySteps r.limit))) := by
  by_cases hlt : r.step + 1 < r.limit
  · left
    refine ⟨hlt, ?_⟩
    simp [next, hlt]
  · right
    have phase : (r.next said).phase = .ended (.error (.tooManySteps r.limit)) := by
      simp [next, hlt]
    obtain ⟨rfl, rfl⟩ := course.of_ended (by simp [isEnded, phase])
    exact ⟨by omega, rfl, rfl, phase⟩

/-! ## What a course tells -/

theorem Step.session_eq {r m : Run} {h : Happening} (step : Step r h m) :
    m.session = r.session := by
  cases step <;> rfl

theorem Course.session_eq {r last : Run} {hs : List Happening} (course : Course r hs last) :
    last.session = r.session := by
  induction course with
  | stay => rfl
  | go step _ ih => rw [ih, step.session_eq]

end Run

/-- A result that the later happenings justify is justified with one happening
before them, and with the steps that it completed. -/
theorem Justified.cons {limit left : Nat} {steps : List Turn} {hs : List Happening}
    {result : Except Failure String} (justified : Justified limit left steps hs result)
    (h : Happening) (new : List Turn) :
    Justified limit (left + new.length) (new ++ steps) (h :: hs) result := by
  have last : ∀ x, hs.getLast? = some x → (h :: hs).getLast? = some x := by
    intro x hx
    rw [List.getLast?_cons, hx]
    rfl
  unfold Justified at justified ⊢
  rw [List.length_append]
  split at justified
  · obtain ⟨⟨output, hlast, read⟩, hlt⟩ := justified
    exact ⟨⟨output, last _ hlast, read⟩, by omega⟩
  · exact ⟨justified.1, by omega⟩
  · exact ⟨last _ justified.1, by omega⟩
  · exact last _ justified
  · exact justified

namespace Run

/-- What the happenings of a run tell of its end: the messages it put behind its
conversation, and why it came to its result. -/
structure Told (r : Run) (hs : List Happening) (last : Run) (result : Except Failure String) :
    Prop where
  conversation : last.conversation =
    r.conversation ++ ((turns r.pending? hs).flatMap Turn.messages ++ answer result)
  justified : Justified r.limit (r.limit - r.step) (turns r.pending? hs) hs result

/-- After a step without an end of its own either the next step begins, or none is
left. -/
theorem Told.of_next {r last : Run} {turn : Turn} {h : Happening} {hs : List Happening}
    {result : Except Failure String} (left : r.step < r.limit)
    (hturns : turns r.pending? (h :: hs) = turn :: turns none hs)
    (rest : Course (r.next turn.messages) hs last) (ended : last.phase = .ended result)
    (ih : (r.next turn.messages).step < (r.next turn.messages).limit →
      (r.next turn.messages).isEnded = false → Told (r.next turn.messages) hs last result) :
    Told r (h :: hs) last result := by
  rcases rest.after_next with ⟨hlt, asking⟩ | ⟨hle, rfl, rfl, phase⟩
  · have pending : (r.next turn.messages).pending? = none := by simp [pending?, asking]
    obtain ⟨conversation, justified⟩ := ih hlt (by simp [isEnded, asking])
    rw [pending] at conversation justified
    constructor
    · rw [hturns, conversation]
      simp [next]
    · have count : r.limit - (r.step + 1) + 1 = r.limit - r.step := by omega
      have longer := justified.cons h [turn]
      rw [hturns]
      simpa [next, count] using longer
  · rw [phase] at ended
    cases ended
    constructor
    · rw [hturns]
      simp [next, turns, answer]
    · rw [hturns]
      refine ⟨rfl, ?_⟩
      simp only [turns, List.length_cons, List.length_nil]
      omega

/-- **The happenings tell the run.** A run that has steps left and comes to its end
has put behind its conversation the two messages of each step and its answer,
and has the result that its happenings justify. -/
theorem Course.told {r last : Run} {hs : List Happening} {result : Except Failure String}
    (course : Course r hs last) (left : r.step < r.limit) (underway : r.isEnded = false)
    (ended : last.phase = .ended result) : Told r hs last result := by
  induction course with
  | stay r => simp [isEnded, ended] at underway
  | @go r m last h hs step rest ih =>
    cases step with
    | failed waits =>
      obtain ⟨rfl, rfl⟩ := rest.of_ended rfl
      cases ended
      refine ⟨by simp [pending?, waits, turns, answer], rfl, ?_⟩
      simp only [pending?, waits, turns, List.length_nil]
      omega
    | @answered output text waits read =>
      obtain ⟨rfl, rfl⟩ := rest.of_ended rfl
      cases ended
      refine ⟨by simp [pending?, waits, turns, read, answer], ⟨output, rfl, read⟩, ?_⟩
      simp only [pending?, waits, turns, read, List.length_nil]
      omega
    | @called output c waits read =>
      obtain ⟨conversation, justified⟩ := ih left rfl ended
      have same : turns r.pending? (.heard (.ok output) :: hs) = turns (some (c, output)) hs := by
        simp [pending?, waits, turns, read]
      constructor
      · rw [same]
        exact conversation
      · rw [same]
        exact justified.cons _ []
    | @misread output reason waits read =>
      refine Told.of_next left ?_ rest ended fun hlt hr => ih hlt hr ended
      simp [pending?, waits, turns, read]
    | @observed output c upshot waits =>
      refine Told.of_next left ?_ rest ended fun hlt hr => ih hlt hr ended
      simp [pending?, waits, turns]
    | interrupted waits =>
      obtain ⟨rfl, rfl⟩ := rest.of_ended rfl
      cases ended
      exact ⟨by simp [answer], rfl⟩

/-- A run that was reached from another one and has not ended: what was said and done on the
way, and that steps are left. -/
structure Going (r : Run) (hs : List Happening) (m : Run) : Prop where
  system : m.system = r.system
  limit : m.limit = r.limit
  step : m.step = r.step + (turns r.pending? hs).length
  left : r.step < r.limit → m.step < m.limit
  conversation : m.conversation = r.conversation ++ (turns r.pending? hs).flatMap Turn.messages
  /-- The steps of a course that goes on from it are steps of the whole. -/
  later : ∀ more, turns r.pending? (hs ++ more) = turns r.pending? hs ++ turns m.pending? more

/-- After a step without an end of its own, a run that is still underway has begun the next. -/
theorem Going.of_next (turn : Turn) {r m : Run} {h : Happening} {hs : List Happening}
    (step : ∀ more, turns r.pending? (h :: more) = turn :: turns none more)
    (course : Course (r.next turn.messages) hs m) (underway : m.isEnded = false)
    (ih : Going (r.next turn.messages) hs m) : Going r (h :: hs) m := by
  rcases course.after_next with ⟨early, asking⟩ | ⟨_, rfl, rfl, ended⟩
  · have pending : (r.next turn.messages).pending? = none := by simp [pending?, asking]
    obtain ⟨system, limit, steps, left, conversation, later⟩ := ih
    rw [pending] at steps conversation later
    refine ⟨system, limit, ?_, fun _ => left early, ?_, ?_⟩
    · rw [steps, step]
      simp only [next, List.length_cons]
      omega
    · rw [conversation, step]
      simp [next]
    · intro more
      rw [List.cons_append, step, step, later, List.cons_append]
  · simp [isEnded, ended] at underway

/-- **On the way.** A course that has not ended its run tells all of it. -/
theorem Course.going {r m : Run} {hs : List Happening} (course : Course r hs m)
    (underway : m.isEnded = false) : Going r hs m := by
  induction course with
  | stay r => constructor <;> simp
  | @go r m last h hs step rest ih =>
    cases step with
    | failed | answered | interrupted =>
      obtain ⟨rfl, rfl⟩ := rest.of_ended rfl
      cases underway
    | @called output c waits read =>
      have same : ∀ more, turns r.pending? (.heard (.ok output) :: more) =
          turns (some (c, output)) more := by
        intro more
        simp [pending?, waits, turns, read]
      obtain ⟨system, limit, steps, left, conversation, later⟩ := ih underway
      constructor
      · exact system
      · exact limit
      · rw [same]
        exact steps
      · exact left
      · rw [same]
        exact conversation
      · intro more
        rw [List.cons_append, same, same]
        exact later more
    | @misread output reason waits read =>
      refine .of_next (.misread output reason) ?_ rest underway (ih underway)
      intro more
      simp [pending?, waits, turns, read]
    | @observed output c upshot waits =>
      refine .of_next (.called output c upshot) ?_ rest underway (ih underway)
      intro more
      simp [pending?, waits, turns]

/-- Each happening leaves less to happen, while steps are left. -/
theorem Step.waitsLeft_lt {r m : Run} {h : Happening} (step : Step r h m)
    (left : r.step < r.limit) : (m.isEnded = true ∨ m.step < m.limit) ∧ m.waitsLeft < r.waitsLeft := by
  cases step with
  | failed waits | answered waits _ =>
    refine ⟨Or.inl rfl, ?_⟩
    simp only [waitsLeft, waits]
    omega
  | called waits _ =>
    refine ⟨Or.inr left, ?_⟩
    simp only [waitsLeft, waits]
    omega
  | misread waits _ | observed waits =>
    by_cases hlt : r.step + 1 < r.limit
    · refine ⟨Or.inr hlt, ?_⟩
      simp only [waitsLeft, waits, next, hlt, if_true]
      omega
    · refine ⟨Or.inl (by simp [isEnded, next, hlt]), ?_⟩
      simp only [waitsLeft, waits, next, hlt, if_false]
      omega
  | interrupted waits =>
    refine ⟨Or.inl rfl, ?_⟩
    unfold isEnded at waits
    cases hp : r.phase with
    | ended x => simp [hp] at waits
    | asking | performing c output =>
      simp only [waitsLeft, hp]
      omega

end Run

/-! ## The happenings of an engine -/

namespace Engine

variable {World : Type}

/-- How a wait of a run ends, if it begins in a world. -/
def happening (e : Engine World) (r : Run) (w : World) : Happening :=
  match r.phase with
  | .asking =>
    let asked := e.ask r.request w
    if e.cancelled asked.world then .interrupted
    else
      match asked.result with
      | none => .interrupted
      | some reply => .heard reply
  | .performing c _ =>
    let done := e.executor.registry.run c.tool c.args w
    if e.cancelled done.world then .interrupted
    else .observed (upshot e.executor.limit done.result)
  | .ended _ => .interrupted

/-- The waits of a run, at most so many, each with the world in which it begins. -/
def waits (e : Engine World) : Nat → Run → World → List (Run × World)
  | 0, _, _ => []
  | n + 1, r, w =>
    if r.isEnded then []
    else (r, w) :: e.waits n (e.advance r w).result (e.advance r w).world

/-- How the waits of a run end. -/
def happenings (e : Engine World) (n : Nat) (r : Run) (w : World) : List Happening :=
  (e.waits n r w).map fun wait => e.happening wait.1 wait.2

/-- The call that is made in a wait, with its outcome. -/
def performed? (e : Engine World) (wait : Run × World) : Option (Call × Tool.Outcome) :=
  match wait.1.phase with
  | .performing c _ => some (c, (e.executor.registry.run c.tool c.args wait.2).result)
  | _ => none

/-- The calls that a run makes, with their outcomes. -/
def performed (e : Engine World) (n : Nat) (r : Run) (w : World) : List (Call × Tool.Outcome) :=
  (e.waits n r w).filterMap e.performed?

/-! ## Advances -/

/-- What comes of the wait for a reply. -/
theorem advance_asking (e : Engine World) {r : Run} (waits : r.phase = .asking) (w : World) :
    (e.advance r w).world = (e.ask r.request w).world ∧
      (e.advance r w).result =
        if e.cancelled (e.ask r.request w).world then r.cancel
        else
          match (e.ask r.request w).result with
          | none => r.cancel
          | some reply => (r.hear reply).1 := by
  unfold advance
  rw [waits]
  simp only [Act.bind_apply]
  rw [Act.ite_apply]
  split <;> rename_i hc
  · exact ⟨rfl, (if_pos hc).symm⟩
  · refine ⟨?_, Eq.trans ?_ (if_neg hc).symm⟩
    · cases (e.ask r.request w).result <;> rfl
    · cases (e.ask r.request w).result <;> rfl

/-- What comes of the wait for the end of a call. -/
theorem advance_performing (e : Engine World) {r : Run} {c : Call} {output : String}
    (waits : r.phase = .performing c output) (w : World) :
    (e.advance r w).world = (e.executor.registry.run c.tool c.args w).world ∧
      (e.advance r w).result =
        if e.cancelled (e.executor.registry.run c.tool c.args w).world then r.cancel
        else
          (r.observe c output (Executor.result e.executor.limit c.tool
            (e.executor.registry.run c.tool c.args w).result)).1 := by
  unfold advance
  rw [waits]
  simp only [Act.bind_apply]
  rw [Act.ite_apply]
  split <;> rename_i hc
  · exact ⟨rfl, (if_pos hc).symm⟩
  · exact ⟨rfl, (if_neg hc).symm⟩

/-- Every advance of a run that has not ended is a step. -/
theorem advance_step (e : Engine World) {r : Run} (underway : r.isEnded = false) (w : World) :
    Run.Step r (e.happening r w) (e.advance r w).result := by
  cases waits : r.phase with
  | ended result => simp [Run.isEnded, waits] at underway
  | asking =>
    rw [(e.advance_asking waits w).2]
    simp only [happening, waits]
    split
    · exact Run.step_cancel underway
    · cases (e.ask r.request w).result with
      | none => exact Run.step_cancel underway
      | some reply => exact Run.step_hear waits reply
  | performing c output =>
    rw [(e.advance_performing waits w).2]
    simp only [happening, waits]
    split
    · exact Run.step_cancel underway
    · exact Run.step_observe waits _ _

theorem advances_ended (e : Engine World) {r : Run} (ended : r.isEnded = true) (n : Nat)
    (w : World) : e.advances n r w = ⟨r, w, []⟩ ∧ e.waits n r w = [] := by
  cases n with
  | zero => exact ⟨rfl, rfl⟩
  | succ n =>
    cases phase : r.phase with
    | ended result => simp [advances, waits, phase, ended]
    | asking | performing c output => simp [Run.isEnded, phase] at ended

theorem advances_succ (e : Engine World) {r : Run} (underway : r.isEnded = false) (n : Nat)
    (w : World) :
    (e.advances (n + 1) r w).result =
        (e.advances n (e.advance r w).result (e.advance r w).world).result ∧
      (e.advances (n + 1) r w).world =
        (e.advances n (e.advance r w).result (e.advance r w).world).world ∧
      e.waits (n + 1) r w =
        (r, w) :: e.waits n (e.advance r w).result (e.advance r w).world := by
  cases phase : r.phase with
  | ended result => simp [Run.isEnded, phase] at underway
  | asking | performing c output => simp [advances, waits, phase, underway]

/-- The run of an engine is a course of the happenings of its waits. -/
theorem advances_course (e : Engine World) (n : Nat) (r : Run) (w : World) :
    Run.Course r (e.happenings n r w) (e.advances n r w).result := by
  induction n generalizing r w with
  | zero => exact .stay r
  | succ n ih =>
    cases underway : r.isEnded with
    | true =>
      obtain ⟨hadv, hwaits⟩ := e.advances_ended underway (n + 1) w
      rw [happenings, hadv, hwaits]
      exact .stay r
    | false =>
      obtain ⟨hresult, _, hwaits⟩ := e.advances_succ underway n w
      rw [happenings, hresult, hwaits]
      exact .go (e.advance_step underway w) (ih _ _)

/-- A wait of a run is reached by the happenings of the waits before it. -/
theorem course_to_wait (e : Engine World) (n : Nat) {r m : Run} {w v : World}
    {before after : List (Run × World)} (cut : e.waits n r w = before ++ (m, v) :: after) :
    Run.Course r (before.map fun wait => e.happening wait.1 wait.2) m ∧ m.isEnded = false := by
  induction n generalizing r w before with
  | zero => simp [waits] at cut
  | succ n ih =>
    cases underway : r.isEnded with
    | true =>
      rw [(e.advances_ended underway (n + 1) w).2] at cut
      simp at cut
    | false =>
      obtain ⟨_, _, hwaits⟩ := e.advances_succ underway n w
      rw [hwaits] at cut
      cases before with
      | nil =>
        obtain ⟨⟨rfl, rfl⟩, _⟩ := by simpa using cut
        exact ⟨.stay r, underway⟩
      | cons wait before =>
        rw [List.cons_append, List.cons_eq_cons] at cut
        obtain ⟨rfl, cut⟩ := cut
        obtain ⟨course, still⟩ := ih cut
        exact ⟨.go (e.advance_step underway w) course, still⟩

/-- As many advances as a run has waits left bring it to its end. -/
theorem isEnded_advances (e : Engine World) (n : Nat) (r : Run) (w : World)
    (left : r.isEnded = true ∨ r.step < r.limit) (enough : r.waitsLeft ≤ n) :
    (e.advances n r w).result.isEnded = true := by
  induction n generalizing r w with
  | zero =>
    cases phase : r.phase with
    | ended result => simp [advances, Run.isEnded, phase]
    | asking | performing c output =>
      simp only [Run.isEnded, phase, Run.waitsLeft] at left enough
      have := left.resolve_left Bool.false_ne_true
      omega
  | succ n ih =>
    cases underway : r.isEnded with
    | true =>
      rw [(e.advances_ended underway (n + 1) w).1]
      exact underway
    | false =>
      rw [underway] at left
      obtain ⟨hleft, hlt⟩ := (e.advance_step underway w).waitsLeft_lt (left.resolve_left Bool.false_ne_true)
      rw [(e.advances_succ underway n w).1]
      exact ih _ _ hleft (by omega)

/-- A run that was started comes to an end. -/
theorem isEnded_finish (e : Engine World) (session system prompt : String) {limit : Nat}
    (positive : 0 < limit) (history : List Message) (w : World) :
    (e.finish (.start session system limit history prompt) w).result.isEnded = true := by
  refine e.isEnded_advances _ _ w (Or.inr positive) ?_
  simp [Run.start, Run.waitsLeft]

/-- What holds across each question and across each call holds across a run, for the
calls that it makes. -/
theorem advances_relates (e : Engine World)
    {R : List (Call × Tool.Outcome) → World → World → Prop} (refl : ∀ w, R [] w w)
    (trans : ∀ {cs ds u v w}, R cs u v → R ds v w → R (cs ++ ds) u w)
    (ask : ∀ messages w, R [] w (e.ask messages w).world)
    (call : ∀ c w, R [(c, (e.executor.registry.run c.tool c.args w).result)] w
      (e.executor.registry.run c.tool c.args w).world)
    (n : Nat) (r : Run) (w : World) : R (e.performed n r w) w (e.advances n r w).world := by
  induction n generalizing r w with
  | zero => exact refl w
  | succ n ih =>
    cases underway : r.isEnded with
    | true =>
      obtain ⟨hadv, hwaits⟩ := e.advances_ended underway (n + 1) w
      rw [performed, hadv, hwaits]
      exact refl w
    | false =>
      obtain ⟨_, hworld, hwaits⟩ := e.advances_succ underway n w
      have rest := ih (e.advance r w).result (e.advance r w).world
      rw [performed, hworld, hwaits, List.filterMap_cons]
      cases waits : r.phase with
      | ended result => simp [Run.isEnded, waits] at underway
      | asking =>
        rw [(e.advance_asking waits w).1] at rest ⊢
        simp only [performed?, waits]
        exact trans (ask r.request w) rest
      | performing c output =>
        rw [(e.advance_performing waits w).1] at rest ⊢
        simp only [performed?, waits]
        exact trans (call c w) rest

/-! ## Pieces of reasoning -/

/-- The run with which a piece of reasoning begins. -/
def runOf (e : Engine World) (prompt channel session : String) (s : Sessions World) : Run :=
  .start (sessionKey channel session) e.systemPrompt (max e.maxSteps 1)
    (history s channel session) prompt

/-- The waits of a piece of reasoning; one that is given up at once has none. -/
def waitsOf (e : Engine World) (prompt channel session : String) (s : Sessions World) :
    List (Run × World) :=
  if e.cancelled s.world then []
  else
    let r := e.runOf prompt channel session s
    e.waits (2 * (r.limit - r.step)) r s.world

/-- How the waits of a piece of reasoning end. -/
def happeningsOf (e : Engine World) (prompt channel session : String) (s : Sessions World) :
    List Happening :=
  (e.waitsOf prompt channel session s).map fun wait => e.happening wait.1 wait.2

/-- The calls that are made in a piece of reasoning, with their outcomes. -/
def callsOf (e : Engine World) (prompt channel session : String) (s : Sessions World) :
    List (Call × Tool.Outcome) :=
  (e.waitsOf prompt channel session s).filterMap e.performed?

/-- A piece of reasoning that is given up at once changes nothing. -/
theorem process_cancelled (e : Engine World) (prompt channel session : String)
    {s : Sessions World} (h : e.cancelled s.world = true) :
    e.process prompt channel session s = ⟨.error .cancelled, s, []⟩ ∧
      e.waitsOf prompt channel session s = [] := by
  refine ⟨?_, if_pos h⟩
  have looked : e.cancelled (Act.look s).result.world = true := h
  unfold process
  simp only [Act.bind_apply]
  rw [Act.ite_apply, if_pos looked]
  rfl

/-- A piece of reasoning that begins takes its run to the end, and the run is then
remembered or not. -/
theorem process_begun (e : Engine World) (prompt channel session : String)
    {s : Sessions World} (h : ¬ e.cancelled s.world = true) {r : Run}
    (begun : r = e.runOf prompt channel session s) :
    (e.process prompt channel session s).result = result (e.finish r s.world).result ∧
      (e.process prompt channel session s).world =
        ⟨e.remember (e.finish r s.world).result s.histories, (e.finish r s.world).world⟩ ∧
      e.waitsOf prompt channel session s = e.waits (2 * (r.limit - r.step)) r s.world := by
  have looked : ¬ e.cancelled (Act.look s).result.world = true := h
  subst begun
  unfold process waitsOf
  simp only [Act.bind_apply]
  rw [Act.ite_apply, if_neg looked, if_neg h]
  exact ⟨rfl, rfl, rfl⟩

/-- What holds across each question and across each call holds across a piece of
reasoning. -/
theorem process_relates (e : Engine World)
    {R : List (Call × Tool.Outcome) → World → World → Prop} (refl : ∀ w, R [] w w)
    (trans : ∀ {cs ds u v w}, R cs u v → R ds v w → R (cs ++ ds) u w)
    (ask : ∀ messages w, R [] w (e.ask messages w).world)
    (call : ∀ c w, R [(c, (e.executor.registry.run c.tool c.args w).result)] w
      (e.executor.registry.run c.tool c.args w).world)
    (prompt channel session : String) (s : Sessions World) :
    R (e.callsOf prompt channel session s) s.world
      (e.process prompt channel session s).world.world := by
  by_cases h : e.cancelled s.world = true
  · obtain ⟨hprocess, hwaits⟩ := e.process_cancelled prompt channel session h
    rw [callsOf, hprocess, hwaits]
    exact refl s.world
  · obtain ⟨_, hworld, hwaits⟩ := e.process_begun prompt channel session h rfl
    rw [callsOf, hworld, hwaits]
    exact e.advances_relates refl trans ask call _ _ s.world

end Engine

end TriageDesk.Agent
