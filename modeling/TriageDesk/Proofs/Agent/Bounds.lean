/-
TriageDesk.Proofs.Agent.Bounds — how far a piece of reasoning goes, what it asks
on the way, and how it ends.

Some happenings decide how a run ends (`Happening.verdict?`): a final answer, a
failure of the model, and that the run is given up. All others begin the next
step, whatever they bring: the result of a tool, its failure, a timeout, a tool
that nobody knows, a call that cannot be read. `Course.verdict` says that a run
goes on until the first verdict or until its steps are used up; so nothing that
goes wrong with a call ends a run.

What a run asks is told by how it came to its waits (`course_to_wait`): the run
that asks for the k-th time has taken k steps (`request_at`), of which there are
no more than the limit. `process_loopLaws` puts this together for a piece of
reasoning in any engine.
-/
import TriageDesk.Proofs.Agent.Isolation

namespace TriageDesk.Agent

open Text

/-! ## Verdicts -/

/-- The final answer that an output is, if it is one. -/
def final? (output : String) : Option String :=
  match Reply.read output with
  | .ok (.answer text) => some text
  | _ => none

theorem final?_eq_some_iff {output text : String} :
    final? output = some text ↔ Reply.read output = .ok (.answer text) := by
  unfold final?
  cases Reply.read output with
  | error reason => simp
  | ok reply => cases reply <;> simp

namespace Happening

/-- What the model replied in a happening. -/
def output? : Happening → Option String
  | .heard (.ok output) => some output
  | _ => none

/-- The result to which a happening brings a run, if it ends it. -/
def verdict? : Happening → Option (Except Failure String)
  | .heard (.ok output) => (final? output).map .ok
  | .heard (.error reason) => some (.error (.modelFailed reason))
  | .observed _ => none
  | .interrupted => some (.error .cancelled)

/-- The verdict of a final answer is its text. -/
theorem verdict?_eq_ok_iff {h : Happening} {text : String} : h.verdict? = some (.ok text) ↔
    ∃ output, h = .heard (.ok output) ∧ final? output = some text := by
  cases h with
  | observed | interrupted => simp [verdict?]
  | heard reply => cases reply <;> simp [verdict?]

theorem verdict?_eq_modelFailed_iff {h : Happening} {reason : String} :
    h.verdict? = some (.error (.modelFailed reason)) ↔ h = .heard (.error reason) := by
  cases h with
  | observed | interrupted => simp [verdict?]
  | heard reply => cases reply <;> simp [verdict?]

theorem verdict?_eq_cancelled_iff {h : Happening} :
    h.verdict? = some (.error .cancelled) ↔ h = .interrupted := by
  cases h with
  | observed | interrupted => simp [verdict?]
  | heard reply => cases reply <;> simp [verdict?]

/-- Every verdict is an answer, a failure of the model, or that the run was given up. -/
theorem verdict?_cases {h : Happening} {result : Except Failure String}
    (verdict : h.verdict? = some result) : (∃ text, result = .ok text) ∨
      (∃ reason, result = .error (.modelFailed reason)) ∨ result = .error .cancelled := by
  cases h with
  | observed => cases verdict
  | interrupted =>
    cases verdict
    simp
  | heard reply =>
    cases reply with
    | error reason =>
      cases verdict
      simp
    | ok output =>
      obtain ⟨text, _, rfl⟩ := Option.map_eq_some_iff.mp verdict
      simp

end Happening

/-- What the model replied in some happenings. -/
def outputs (hs : List Happening) : List String := hs.filterMap Happening.output?

@[simp] theorem outputs_nil : outputs [] = [] := rfl

@[simp] theorem outputs_heard (output : String) (hs : List Happening) :
    outputs (.heard (.ok output) :: hs) = output :: outputs hs := rfl

@[simp] theorem outputs_failed (reason : String) (hs : List Happening) :
    outputs (.heard (.error reason) :: hs) = outputs hs := rfl

@[simp] theorem outputs_observed (upshot : Upshot) (hs : List Happening) :
    outputs (.observed upshot :: hs) = outputs hs := rfl

@[simp] theorem outputs_interrupted (hs : List Happening) :
    outputs (.interrupted :: hs) = outputs hs := rfl

theorem mem_outputs_iff {output : String} {hs : List Happening} :
    output ∈ outputs hs ↔ .heard (.ok output) ∈ hs := by
  unfold outputs
  rw [List.mem_filterMap]
  constructor
  · rintro ⟨h, among, said⟩
    cases h with
    | observed | interrupted => cases said
    | heard reply => cases reply <;> cases said; exact among
  · exact fun among => ⟨_, among, rfl⟩

/-- No verdict comes where no reply is a final answer, the model does not fail and no wait is
given up. -/
theorem quiet_iff {hs : List Happening} : (∀ h ∈ hs, h.verdict? = none) ↔
    (∀ output ∈ outputs hs, final? output = none) ∧
      (∀ reason, .heard (.error reason) ∉ hs) ∧ .interrupted ∉ hs := by
  constructor
  · intro quiet
    refine ⟨fun output among => ?_, fun reason among => ?_, fun among => ?_⟩
    · simpa [Happening.verdict?] using quiet _ (mem_outputs_iff.mp among)
    · cases quiet _ among
    · cases quiet _ among
  · rintro ⟨answers, failures, interruptions⟩ h among
    cases h with
    | observed => rfl
    | interrupted => exact absurd among interruptions
    | heard reply =>
      cases reply with
      | error reason => exact absurd among (failures reason)
      | ok output => simpa [Happening.verdict?] using answers output (mem_outputs_iff.mpr among)

/-- The words of the model in a step. -/
def Turn.output : Turn → String
  | .called output _ _ => output
  | .misread output _ => output

/-- A step does what the words of the model ask for: it performs the call that they are, or
says what is wrong with them. -/
def Turn.Faithful : Turn → Prop
  | .called output c _ => Reply.read output = .ok (.call c)
  | .misread output reason => Reply.read output = .error reason

/-! ## The end of a course -/

namespace Run

theorem pending?_next (r : Run) (said : List Message) : (r.next said).pending? = none := by
  unfold pending? next
  split_ifs <;> rfl

/-- What has not ended a run was no verdict. -/
theorem Course.quiet {r m : Run} {hs : List Happening} (course : Course r hs m)
    (underway : m.isEnded = false) : ∀ h ∈ hs, h.verdict? = none := by
  induction course with
  | stay => simp
  | @go r m last h hs step rest ih =>
    have first : h.verdict? = none := by
      cases step with
      | failed | answered | interrupted =>
        obtain ⟨_, rfl⟩ := rest.of_ended rfl
        cases underway
      | called _ read | misread _ read => simp [Happening.verdict?, final?, read]
      | observed => rfl
    intro x among
    rcases List.mem_cons.mp among with rfl | among
    · exact first
    · exact ih underway x among

/-- A run comes to a call by the reply that makes it. -/
theorem Course.last_heard {r m : Run} {hs : List Happening} {c : Call} {output : String}
    (course : Course r hs m) (fresh : r.phase = .asking)
    (pending : m.phase = .performing c output) :
    ∃ before, hs = before ++ [.heard (.ok output)] ∧ Reply.read output = .ok (.call c) := by
  -- where the course begins does not matter, only that something happens in it
  have last : (hs = [] ∧ m = r) ∨
      ∃ before, hs = before ++ [.heard (.ok output)] ∧ Reply.read output = .ok (.call c) := by
    clear fresh
    induction course with
    | stay => exact .inl ⟨rfl, rfl⟩
    | @go r m last h hs step rest ih =>
      rcases ih pending with ⟨rfl, rfl⟩ | ⟨before, rfl, read⟩
      · cases step with
        | failed | answered | interrupted => cases pending
        | called waits read =>
          cases pending
          exact .inr ⟨[], rfl, read⟩
        | misread | observed =>
          unfold next at pending
          simp only at pending
          split at pending <;> cases pending
      · exact .inr ⟨h :: before, rfl, read⟩
  rcases last with ⟨_, rfl⟩ | last
  · rw [fresh] at pending
    cases pending
  · exact last

/-- **The end of a run** is its first verdict, or comes when its steps are used up. -/
theorem Course.verdict {r last : Run} {hs : List Happening} {result : Except Failure String}
    (course : Course r hs last) (underway : r.isEnded = false)
    (ended : last.phase = .ended result) :
    (∃ before h, hs = before ++ [h] ∧ (∀ x ∈ before, x.verdict? = none) ∧
        h.verdict? = some result) ∨
      ((∀ x ∈ hs, x.verdict? = none) ∧ result = .error (.tooManySteps r.limit)) := by
  induction course with
  | stay r => simp [isEnded, ended] at underway
  | @go r m last h hs step rest ih =>
    -- a happening without a verdict puts off the end
    have later (quiet : h.verdict? = none) (same : m.limit = r.limit)
        (ends : m.isEnded = true → result = .error (.tooManySteps r.limit)) :
        (∃ before x, h :: hs = before ++ [x] ∧ (∀ y ∈ before, y.verdict? = none) ∧
            x.verdict? = some result) ∨
          ((∀ y ∈ h :: hs, y.verdict? = none) ∧ result = .error (.tooManySteps r.limit)) := by
      cases finished : m.isEnded with
      | true =>
        obtain ⟨rfl, rfl⟩ := rest.of_ended finished
        exact .inr ⟨by simpa using quiet, ends finished⟩
      | false =>
        rcases ih finished ended with ⟨before, x, rfl, others, decides⟩ | ⟨others, usedUp⟩
        · refine .inl ⟨h :: before, x, rfl, ?_, decides⟩
          intro y among
          rcases List.mem_cons.mp among with rfl | among
          · exact quiet
          · exact others y among
        · refine .inr ⟨?_, same ▸ usedUp⟩
          intro y among
          rcases List.mem_cons.mp among with rfl | among
          · exact quiet
          · exact others y among
    have usedUp {said : List Message} (here : m = r.next said) (finished : m.isEnded = true) :
        result = .error (.tooManySteps r.limit) := by
      obtain ⟨_, rfl⟩ := rest.of_ended finished
      subst here
      unfold next at ended
      simp only at ended
      split at ended <;> cases ended
      rfl
    cases step with
    | failed =>
      obtain ⟨rfl, rfl⟩ := rest.of_ended rfl
      cases ended
      exact .inl ⟨[], _, rfl, by simp, rfl⟩
    | answered _ read =>
      obtain ⟨rfl, rfl⟩ := rest.of_ended rfl
      cases ended
      exact .inl ⟨[], _, rfl, by simp, by simp [Happening.verdict?, final?, read]⟩
    | interrupted =>
      obtain ⟨rfl, rfl⟩ := rest.of_ended rfl
      cases ended
      exact .inl ⟨[], _, rfl, by simp, rfl⟩
    | called _ read =>
      exact later (by simp [Happening.verdict?, final?, read]) rfl fun finished => by cases finished
    | misread _ read => exact later (by simp [Happening.verdict?, final?, read]) rfl (usedUp rfl)
    | observed => exact later rfl rfl (usedUp rfl)

/-- The steps of a course are taken with the outputs of the model, one after the other: all of
them on the way, where the last may have led to a call that is still under way. -/
theorem Course.outputs {r m : Run} {hs : List Happening} (course : Course r hs m) :
    ∃ rest, (r.pending?.map (·.2)).toList ++ outputs hs =
        (turns r.pending? hs).map Turn.output ++ rest ∧
      (m.isEnded = false → rest = (m.pending?.map (·.2)).toList) := by
  induction course with
  | stay r => exact ⟨_, by simp, fun _ => rfl⟩
  | @go r m last h hs step rest ih =>
    obtain ⟨more, same, still⟩ := ih
    cases step with
    | failed waits =>
      obtain ⟨rfl, rfl⟩ := rest.of_ended rfl
      refine ⟨[], ?_, fun underway => by cases underway⟩
      simp [pending?, waits, turns]
    | @answered output text waits read =>
      obtain ⟨rfl, rfl⟩ := rest.of_ended rfl
      refine ⟨[output], ?_, fun underway => by cases underway⟩
      simp [pending?, waits, turns, read]
    | interrupted waits =>
      obtain ⟨rfl, rfl⟩ := rest.of_ended rfl
      exact ⟨(r.pending?.map (·.2)).toList, by simp, fun underway => by cases underway⟩
    | called waits read =>
      refine ⟨more, ?_, still⟩
      simpa [pending?, waits, turns, read] using same
    | misread waits read =>
      refine ⟨more, ?_, still⟩
      rw [pending?_next] at same
      simpa [pending?, waits, turns, read, Turn.output] using same
    | observed waits =>
      refine ⟨more, ?_, still⟩
      rw [pending?_next] at same
      simpa [pending?, waits, turns, Turn.output] using same

end Run

/-- Every step does what the words of the model ask for, if a call that is under way at first
does. -/
theorem turns_faithful (pending : Option (Call × String)) (hs : List Happening)
    (read : ∀ c output, pending = some (c, output) → Reply.read output = .ok (.call c)) :
    ∀ turn ∈ turns pending hs, turn.Faithful := by
  fun_induction turns pending hs with
  | case1 output rest c here ih =>
    refine ih ?_
    rintro c' output' ⟨⟩
    exact here
  | case2 output rest text here ih => exact ih (by simp)
  | case3 output rest reason here ih =>
    intro turn among
    rcases List.mem_cons.mp among with rfl | among
    · exact here
    · exact ih (by simp) turn among
  | case4 c output result rest ih =>
    intro turn among
    rcases List.mem_cons.mp among with rfl | among
    · exact read c output rfl
    · exact ih (by simp) turn among
  | case5 pending h rest _ _ ih => exact ih (by simp)
  | case6 => simp

/-! ## The waits of an engine -/

namespace Engine

variable {World : Type}

/-- Of the waits that no verdict ends, those for the model bring a reply of it. -/
theorem output?_isSome_happening (e : Engine World) {wait : Run × World}
    (quiet : (e.happening wait.1 wait.2).verdict? = none) :
    (e.happening wait.1 wait.2).output?.isSome = (asked? wait).isSome := by
  unfold happening asked? at *
  cases phase : wait.1.phase with
  | ended result => simp [phase, Happening.verdict?] at quiet
  | performing c output =>
    simp only [phase] at quiet ⊢
    split <;> rfl
  | asking =>
    simp only [phase] at quiet ⊢
    split at quiet
    · cases quiet
    · rename_i kept
      rw [if_neg kept]
      cases replied : (e.ask wait.1.request wait.2).result with
      | none => simp [replied, Happening.verdict?] at quiet
      | some reply =>
        cases reply with
        | error reason => simp [replied, Happening.verdict?] at quiet
        | ok output => rfl

/-- Only a wait for the model brings a reply of it. -/
theorem asked?_isSome_of_output (e : Engine World) {wait : Run × World} {output : String}
    (heard : (e.happening wait.1 wait.2).output? = some output) : (asked? wait).isSome = true := by
  unfold happening at heard
  unfold asked?
  cases phase : wait.1.phase with
  | ended result => simp [phase, Happening.output?] at heard
  | asking => rfl
  | performing c words =>
    simp only [phase] at heard
    split at heard <;> cases heard

/-- As many replies come as the model is asked, where no verdict comes. -/
theorem length_outputs_of_quiet (e : Engine World) {waits : List (Run × World)}
    (quiet : ∀ wait ∈ waits, (e.happening wait.1 wait.2).verdict? = none) :
    (outputs (waits.map fun wait => e.happening wait.1 wait.2)).length =
      (waits.filterMap asked?).length := by
  rw [outputs, List.filterMap_map, List.length_filterMap_eq_countP,
    List.length_filterMap_eq_countP]
  refine List.countP_congr ?_
  intro wait among
  rw [Function.comp_apply, e.output?_isSome_happening (quiet wait among)]

/-- No more replies come than the model is asked. -/
theorem length_outputs_le (e : Engine World) (waits : List (Run × World)) :
    (outputs (waits.map fun wait => e.happening wait.1 wait.2)).length ≤
      (waits.filterMap asked?).length := by
  rw [outputs, List.filterMap_map, List.length_filterMap_eq_countP,
    List.length_filterMap_eq_countP]
  refine List.countP_mono_left ?_
  intro wait _ heard
  obtain ⟨output, heard⟩ := Option.isSome_iff_exists.mp heard
  exact e.asked?_isSome_of_output heard

/-- The waits up to the one in which the k-th request is made. -/
theorem waits_to_request {waits : List (Run × World)} {k : Nat} {request : List Message}
    (asked : (waits.filterMap asked?)[k]? = some request) :
    ∃ before wait after, waits = before ++ wait :: after ∧ asked? wait = some request ∧
      (before.filterMap asked?).length = k := by
  induction waits generalizing k with
  | nil => simp at asked
  | cons wait rest ih =>
    rw [List.filterMap_cons] at asked
    cases asks : asked? wait with
    | none =>
      simp only [asks] at asked
      obtain ⟨before, there, after, rfl, same, count⟩ := ih asked
      exact ⟨wait :: before, there, after, rfl, same, by simpa [asks] using count⟩
    | some first =>
      simp only [asks] at asked
      cases k with
      | zero =>
        rw [List.getElem?_cons_zero] at asked
        exact ⟨[], wait, rest, rfl, asks.trans asked, rfl⟩
      | succ k =>
        rw [List.getElem?_cons_succ] at asked
        obtain ⟨before, there, after, rfl, same, count⟩ := ih asked
        exact ⟨wait :: before, there, after, rfl, same, by simpa [asks] using count⟩

/-- **The k-th request** of a run that begins with one comes after k steps, and the steps are
fewer than its limit. -/
theorem request_at (e : Engine World) (n : Nat) {r : Run} {w : World} (fresh : r.phase = .asking)
    (left : r.step < r.limit) {k : Nat} {request : List Message}
    (asked : ((e.waits n r w).filterMap asked?)[k]? = some request) :
    let steps := turns none (e.happenings n r w)
    k ≤ steps.length ∧ r.step + k < r.limit ∧
      request = ⟨.system, r.system⟩ ::
        (r.conversation ++ (steps.take k).flatMap Turn.messages) := by
  intro steps
  obtain ⟨before, ⟨m, v⟩, after, cut, asks, count⟩ := waits_to_request asked
  obtain ⟨course, underway⟩ := e.course_to_wait n cut
  obtain ⟨waiting, same⟩ := asked?_eq_some_iff.mp asks
  change m.phase = .asking at waiting
  obtain ⟨system, limit, step, going, conversation, later⟩ := course.going underway
  obtain ⟨more, replies, rest⟩ := course.outputs
  have fresh : r.pending? = none := by simp [Run.pending?, fresh]
  have idle : m.pending? = none := by simp [Run.pending?, waiting]
  rw [fresh] at step conversation later replies
  rw [idle] at later rest
  -- each request on the way has brought a reply, and each reply has led to a step
  have taken : (turns none (before.map fun wait => e.happening wait.1 wait.2)).length = k := by
    have quiet := course.quiet underway
    rw [List.forall_mem_map] at quiet
    rw [← count, ← e.length_outputs_of_quiet quiet]
    have lengths := congrArg List.length replies
    simpa [rest underway] using lengths.symm
  have whole : steps = turns none (before.map fun wait => e.happening wait.1 wait.2) ++
      turns none (((m, v) :: after).map fun wait => e.happening wait.1 wait.2) := by
    rw [← later, ← List.map_append, ← cut]
    rfl
  refine ⟨?_, ?_, ?_⟩
  · rw [whole, List.length_append]
    omega
  · rw [← taken, ← step, ← limit]
    exact going left
  · rw [whole, List.take_left' taken, ← same, Run.request, system, conversation]

/-- A run that begins with a request makes no more of them than steps are left to it. -/
theorem length_requests_le (e : Engine World) (n : Nat) {r : Run} {w : World}
    (fresh : r.phase = .asking) (left : r.step < r.limit) :
    ((e.waits n r w).filterMap asked?).length ≤ r.limit - r.step := by
  cases count : ((e.waits n r w).filterMap asked?).length with
  | zero => exact Nat.zero_le _
  | succ k =>
    have last : k < ((e.waits n r w).filterMap asked?).length := by omega
    obtain ⟨_, fewer, _⟩ := e.request_at n fresh left (List.getElem?_eq_getElem last)
    omega

/-- Right before each call of a run that begins with a request, the model was asked and
replied with that call. -/
theorem asked_before_call (e : Engine World) (n : Nat) {r : Run} {w : World}
    (fresh : r.phase = .asking) {before after : List (Run × World)} {wait : Run × World}
    {c : Call} {outcome : Tool.Outcome} (cut : e.waits n r w = before ++ wait :: after)
    (performs : e.performed? wait = some (c, outcome)) :
    ∃ earlier asking output, before = earlier ++ [asking] ∧ (asked? asking).isSome = true ∧
      e.happening asking.1 asking.2 = .heard (.ok output) ∧
      Reply.read output = .ok (.call c) := by
  obtain ⟨m, v⟩ := wait
  obtain ⟨course, _⟩ := e.course_to_wait n cut
  unfold performed? at performs
  cases phase : m.phase with
  | asking | ended => simp [phase] at performs
  | performing d output =>
    simp only [phase] at performs
    cases performs
    obtain ⟨said, happened, read⟩ := course.last_heard fresh phase
    obtain ⟨earlier, last, rfl, _, here⟩ := List.map_eq_append_iff.mp happened
    obtain ⟨asking, rest, rfl, heard, none_⟩ := List.map_eq_cons_iff.mp here
    obtain rfl := List.map_eq_nil_iff.mp none_
    exact ⟨earlier, asking, output, rfl, e.asked?_isSome_of_output (by rw [heard]; rfl), heard,
      read⟩

/-- What was observed in a step, if a call was made in it. -/
def observed? : Turn → Option (Call × Upshot)
  | .called _ c upshot => some (c, upshot)
  | .misread _ _ => none

/-- How a call comes out that was made. -/
def concluded (e : Engine World) (made : Call × Tool.Outcome) : Call × Upshot :=
  (made.1, upshot e.executor.limit made.2)

/-- The steps show how the calls come out, one after the other; the last call may have been
given up. -/
theorem observed_isPrefix (e : Engine World) (n : Nat) (r : Run) (w : World) :
    (turns r.pending? (e.happenings n r w)).filterMap observed? <+:
      (e.performed n r w).map e.concluded := by
  induction n generalizing r w with
  | zero => simp [happenings, waits]
  | succ n ih =>
    cases underway : r.isEnded with
    | true => simp [happenings, (e.advances_ended underway (n + 1) w).2]
    | false =>
      have step := e.advance_step underway w
      have rest := ih (e.advance r w).result (e.advance r w).world
      rw [happenings, performed, (e.advances_succ underway n w).2.2, List.map_cons,
        List.filterMap_cons]
      rw [happenings, performed] at rest
      generalize happened : e.happening r w = h at step ⊢
      generalize (e.advance r w).world = v at rest ⊢
      generalize (e.advance r w).result = m at step rest ⊢
      have stopped (finished : m.isEnded = true) : e.waits n m v = [] :=
        (e.advances_ended finished n v).2
      cases step with
      | failed waits => simp [Run.pending?, waits, turns, stopped rfl]
      | answered waits read => simp [Run.pending?, waits, turns, read, stopped rfl]
      | interrupted => simp [stopped rfl]
      | called waits read =>
        simpa [Run.pending?, waits, turns, read, performed?] using rest
      | misread waits read =>
        rw [Run.pending?_next] at rest
        simpa [Run.pending?, waits, turns, read, performed?, List.filterMap_cons, observed?]
          using rest
      | @observed output c result waits =>
        have shown : upshot e.executor.limit (e.executor.registry.run c.tool c.args w).result =
            result := by
          unfold happening at happened
          simp only [waits] at happened
          split at happened <;> cases happened
          rfl
        rw [Run.pending?_next] at rest
        simpa [Run.pending?, waits, turns, performed?, observed?, concluded, shown] using rest

/-! ## Pieces of reasoning -/

/-- The steps that were taken in a piece of reasoning. -/
def stepsOf (e : Engine World) (prompt channel session : String) (s : Sessions World) :
    List Turn :=
  turns none (e.happeningsOf prompt channel session s)

/-- What the model replied in a piece of reasoning. -/
def outputsOf (e : Engine World) (prompt channel session : String) (s : Sessions World) :
    List String :=
  outputs (e.happeningsOf prompt channel session s)

/-- What is kept of the sessions holds no instructions. -/
def Plain (s : Sessions World) : Prop :=
  ∀ key messages, s.histories.get? key = some messages → ∀ m ∈ messages, m.role ≠ .system

/-- A piece of reasoning that is not given up at once takes its run to the end. -/
theorem process_course (e : Engine World) (prompt channel session : String) {s : Sessions World}
    (h : ¬ e.cancelled s.world = true) :
    ∃ last, Run.Course (e.runOf prompt channel session s)
        (e.happeningsOf prompt channel session s) last ∧
      last.phase = .ended (e.process prompt channel session s).result := by
  generalize begun : e.runOf prompt channel session s = r
  obtain ⟨hresult, _, hwaits⟩ := e.process_begun prompt channel session h begun.symm
  have ended : (e.finish r s.world).result.isEnded = true := by
    rw [← begun]
    exact e.isEnded_finish _ _ prompt (Nat.lt_of_lt_of_le Nat.one_pos (Nat.le_max_right _ _)) _ _
  refine ⟨(e.finish r s.world).result, ?_, ?_⟩
  · rw [happeningsOf, hwaits]
    exact e.advances_course _ _ _
  · rw [hresult, result]
    cases phase : (e.finish r s.world).result.phase with
    | asking | performing => simp [Run.isEnded, phase] at ended
    | ended => rfl

/-- No step puts instructions into a conversation. -/
theorem role_ne_system_of_mem_messages {turn : Turn} {m : Message} (among : m ∈ turn.messages) :
    m.role ≠ .system := by
  cases turn <;> simp only [Turn.messages, List.mem_cons, List.not_mem_nil, or_false] at among <;>
    rcases among with rfl | rfl <;> simp

theorem role_ne_system_of_mem_transcript {a : Account} {m : Message} (among : m ∈ a.transcript) :
    m.role ≠ .system := by
  unfold Account.transcript at among
  simp only [List.mem_cons, List.mem_append, List.mem_flatMap] at among
  rcases among with rfl | ⟨turn, _, among⟩ | among
  · simp
  · exact role_ne_system_of_mem_messages among
  · unfold answer at among
    split at among
    · obtain rfl := List.mem_singleton.mp among
      simp
    · cases among

theorem Plain.history {s : Sessions World} (plain : Plain s) (channel session : String) :
    ∀ m ∈ history s channel session, m.role ≠ .system := by
  intro m among
  unfold Engine.history at among
  cases kept : s.histories.get? (sessionKey channel session) with
  | none => simp [kept] at among
  | some messages => exact plain _ _ kept m (by simpa [kept] using among)

/-- A piece of reasoning keeps no instructions. -/
theorem Plain.process {s : Sessions World} (plain : Plain s) (e : Engine World)
    (prompt channel session : String) : Plain (e.process prompt channel session s).world := by
  intro key messages kept m among
  rw [(e.process_spec prompt channel session s).2] at kept
  split_ifs at kept
  · rw [Table.get?_insert] at kept
    split_ifs at kept
    · cases kept
      rcases List.mem_append.mp (List.mem_of_mem_drop among) with among | among
      · exact plain.history channel session m among
      · exact role_ne_system_of_mem_transcript among
    · exact plain key messages kept m among
  · exact plain key messages kept m among

/-- The laws of a piece of reasoning. -/
structure LoopLaws (e : Engine World) (prompt channel session : String) (s : Sessions World) :
    Prop where
  /-- The model is asked no more often than steps are allowed, and no number of steps is one. -/
  requests_le : (e.requestsOf prompt channel session s).length ≤ max e.maxSteps 1
  /-- A call comes right after a request, and is the one that the reply to it makes. -/
  call_after_request : ∀ before wait after c outcome,
    e.waitsOf prompt channel session s = before ++ wait :: after →
    e.performed? wait = some (c, outcome) →
    ∃ earlier asking output, before = earlier ++ [asking] ∧ (asked? asking).isSome = true ∧
      e.happening asking.1 asking.2 = .heard (.ok output) ∧ Reply.read output = .ok (.call c)
  /-- The k-th request is made after k steps: it holds the instructions, the history of the
  session, the prompt, and two messages for each of these steps. -/
  request : ∀ k request, (e.requestsOf prompt channel session s)[k]? = some request →
    k ≤ (e.stepsOf prompt channel session s).length ∧
      request = ⟨.system, e.systemPrompt⟩ :: (history s channel session ++ ⟨.user, prompt⟩ ::
        ((e.stepsOf prompt channel session s).take k).flatMap Turn.messages)
  /-- No instructions are kept of any session, so they are at the head of a request and
  nowhere else in it. -/
  system_once : Plain s → Plain (e.process prompt channel session s).world ∧
    ∀ request ∈ e.requestsOf prompt channel session s,
      request.filter (·.role = .system) = [⟨.system, e.systemPrompt⟩]
  /-- The steps are taken with the replies of the model, one after the other. -/
  replied : (e.stepsOf prompt channel session s).map Turn.output <+:
    e.outputsOf prompt channel session s
  /-- A step is a call if its reply makes that call, and a word on what is wrong with the reply
  otherwise. -/
  faithful : ∀ turn ∈ e.stepsOf prompt channel session s, turn.Faithful
  /-- What a step shows of its call is how the call came out: in time with a result or a
  failure, or too late. -/
  observed : (e.stepsOf prompt channel session s).filterMap observed? <+:
    (e.callsOf prompt channel session s).map e.concluded
  /-- The result is an answer exactly if the model replied with one, and it is the text of the
  first of them. -/
  answered : ∀ text, (e.process prompt channel session s).result = .ok text ↔
    ∃ earlier output later, e.outputsOf prompt channel session s = earlier ++ output :: later ∧
      (∀ o ∈ earlier, final? o = none) ∧ final? output = some text
  /-- Nothing happens after a verdict. -/
  ends : ∀ before h after, e.happeningsOf prompt channel session s = before ++ h :: after →
    h.verdict? ≠ none → after = []
  /-- An answer is a reply without the white space around it. -/
  trimmed : ∀ output text, final? output = some text → text = Text.trimmed output
  /-- The steps are used up exactly if the model was asked in each of them, none of its replies
  was a final answer, it did not fail, and no wait was given up. -/
  exhausted : ∀ n, (e.process prompt channel session s).result = .error (.tooManySteps n) ↔
    n = max e.maxSteps 1 ∧ (e.requestsOf prompt channel session s).length = max e.maxSteps 1 ∧
      (∀ output ∈ e.outputsOf prompt channel session s, final? output = none) ∧
      (∀ reason, .heard (.error reason) ∉ e.happeningsOf prompt channel session s) ∧
      .interrupted ∉ e.happeningsOf prompt channel session s
  /-- The model has failed exactly if one of its replies was a failure. -/
  failed : ∀ reason, (e.process prompt channel session s).result = .error (.modelFailed reason) ↔
    .heard (.error reason) ∈ e.happeningsOf prompt channel session s
  /-- A piece of reasoning was given up exactly if it was before it began or in one of its
  waits. -/
  given_up : (e.process prompt channel session s).result = .error .cancelled ↔
    e.cancelled s.world = true ∨ .interrupted ∈ e.happeningsOf prompt channel session s
  /-- There is no other result: nothing that goes wrong with a call is one. -/
  only : (∃ text, (e.process prompt channel session s).result = .ok text) ∨
    (e.process prompt channel session s).result = .error (.tooManySteps (max e.maxSteps 1)) ∨
    (∃ reason, (e.process prompt channel session s).result = .error (.modelFailed reason)) ∨
    (e.process prompt channel session s).result = .error .cancelled

/-- A piece of reasoning is given up before it begins, or ends with its first verdict, or has
taken all its steps. -/
theorem process_verdict (e : Engine World) (prompt channel session : String) (s : Sessions World) :
    (e.cancelled s.world = true ∧ e.happeningsOf prompt channel session s = [] ∧
        (e.process prompt channel session s).result = .error .cancelled) ∨
      (∃ before h, e.happeningsOf prompt channel session s = before ++ [h] ∧
        (∀ x ∈ before, x.verdict? = none) ∧
        h.verdict? = some (e.process prompt channel session s).result) ∨
      ((∀ x ∈ e.happeningsOf prompt channel session s, x.verdict? = none) ∧
        (e.process prompt channel session s).result = .error (.tooManySteps (max e.maxSteps 1)) ∧
        (e.stepsOf prompt channel session s).length = max e.maxSteps 1) := by
  by_cases h : e.cancelled s.world = true
  · obtain ⟨hprocess, hwaits⟩ := e.process_cancelled prompt channel session h
    exact .inl ⟨h, by simp [happeningsOf, hwaits], by rw [hprocess]⟩
  · right
    obtain ⟨last, course, ended⟩ := e.process_course prompt channel session h
    have limit : 0 < max e.maxSteps 1 := Nat.lt_of_lt_of_le Nat.one_pos (Nat.le_max_right _ _)
    have justified := (course.told limit rfl ended).justified
    rcases course.verdict rfl ended with first | ⟨quiet, usedUp⟩
    · exact .inl first
    · rw [usedUp] at justified
      exact .inr ⟨quiet, usedUp, justified.2⟩

/-- The k-th request of a piece of reasoning. -/
theorem requestsOf_at (e : Engine World) {prompt channel session : String} {s : Sessions World}
    {k : Nat} {request : List Message}
    (asked : (e.requestsOf prompt channel session s)[k]? = some request) :
    k ≤ (e.stepsOf prompt channel session s).length ∧
      request = ⟨.system, e.systemPrompt⟩ :: (history s channel session ++ ⟨.user, prompt⟩ ::
        ((e.stepsOf prompt channel session s).take k).flatMap Turn.messages) := by
  have limit : 0 < max e.maxSteps 1 := Nat.lt_of_lt_of_le Nat.one_pos (Nat.le_max_right _ _)
  unfold requestsOf at asked
  by_cases h : e.cancelled s.world = true
  · simp [(e.process_cancelled prompt channel session h).2] at asked
  · have waits := (e.process_begun prompt channel session h rfl).2.2
    rw [waits] at asked
    obtain ⟨taken, _, same⟩ := e.request_at _ rfl limit asked
    rw [happenings, ← waits] at taken same
    exact ⟨taken, by simpa [runOf, Run.start, stepsOf, happeningsOf] using same⟩

theorem length_requestsOf_le (e : Engine World) (prompt channel session : String)
    (s : Sessions World) :
    (e.requestsOf prompt channel session s).length ≤ max e.maxSteps 1 := by
  have limit : 0 < max e.maxSteps 1 := Nat.lt_of_lt_of_le Nat.one_pos (Nat.le_max_right _ _)
  unfold requestsOf
  by_cases h : e.cancelled s.world = true
  · simp [(e.process_cancelled prompt channel session h).2]
  · rw [(e.process_begun prompt channel session h rfl).2.2]
    exact e.length_requests_le _ rfl limit

/-- The steps are taken with the replies of the model, one after the other. -/
theorem replied_isPrefix (e : Engine World) (prompt channel session : String)
    (s : Sessions World) :
    (e.stepsOf prompt channel session s).map Turn.output <+:
      e.outputsOf prompt channel session s := by
  by_cases h : e.cancelled s.world = true
  · simp [stepsOf, happeningsOf, (e.process_cancelled prompt channel session h).2]
  · obtain ⟨last, course, _⟩ := e.process_course prompt channel session h
    obtain ⟨rest, replies, _⟩ := course.outputs
    exact ⟨rest, replies.symm⟩

/-- A verdict is the result. -/
theorem result_of_verdict (e : Engine World) {prompt channel session : String}
    {s : Sessions World} {h : Happening} {result : Except Failure String}
    (among : h ∈ e.happeningsOf prompt channel session s) (decides : h.verdict? = some result) :
    (e.process prompt channel session s).result = result := by
  rcases e.process_verdict prompt channel session s with
    ⟨_, none_, _⟩ | ⟨before, last, same, quiet, verdict⟩ | ⟨quiet, _⟩
  · simp [none_] at among
  · rw [same, List.mem_append, List.mem_singleton] at among
    rcases among with among | rfl
    · simp [quiet h among] at decides
    · rw [decides] at verdict
      exact (Option.some.inj verdict).symm
  · simp [quiet h among] at decides

/-- A result other than that the steps are used up is a verdict, if it was not reached before
the beginning. -/
theorem verdict_of_result (e : Engine World) {prompt channel session : String}
    {s : Sessions World} {result : Except Failure String}
    (here : (e.process prompt channel session s).result = result)
    (begun : e.cancelled s.world = true → result ≠ .error .cancelled)
    (early : ∀ n, result ≠ .error (.tooManySteps n)) :
    ∃ before h, e.happeningsOf prompt channel session s = before ++ [h] ∧
      (∀ x ∈ before, x.verdict? = none) ∧ h.verdict? = some result := by
  rcases e.process_verdict prompt channel session s with
    ⟨given, _, cancelled⟩ | first | ⟨_, usedUp, _⟩
  · exact absurd (here.symm.trans cancelled) (begun given)
  · rwa [here] at first
  · exact absurd (here.symm.trans usedUp) (early _)

/-- Where no instructions are kept, a request holds the instructions once. -/
theorem filter_system_request (e : Engine World) {prompt channel session : String}
    {s : Sessions World} (plain : Plain s) {request : List Message}
    (among : request ∈ e.requestsOf prompt channel session s) :
    request.filter (·.role = .system) = [⟨.system, e.systemPrompt⟩] := by
  obtain ⟨k, asked⟩ := List.getElem?_of_mem among
  obtain ⟨_, rfl⟩ := e.requestsOf_at asked
  have others : ∀ m ∈ history s channel session ++ ⟨.user, prompt⟩ ::
      ((e.stepsOf prompt channel session s).take k).flatMap Turn.messages,
      m.role ≠ .system := by
    intro m among
    rcases List.mem_append.mp among with among | among
    · exact plain.history channel session m among
    · rcases List.mem_cons.mp among with rfl | among
      · simp
      · obtain ⟨turn, _, among⟩ := List.mem_flatMap.mp among
        exact role_ne_system_of_mem_messages among
  rw [List.filter_cons_of_pos (by simp), List.filter_eq_nil_iff.mpr (by simpa using others)]

/-- What the steps show of their calls is how these came out. -/
theorem observedOf_isPrefix (e : Engine World) (prompt channel session : String)
    (s : Sessions World) :
    (e.stepsOf prompt channel session s).filterMap observed? <+:
      (e.callsOf prompt channel session s).map e.concluded := by
  by_cases h : e.cancelled s.world = true
  · simp [stepsOf, happeningsOf, (e.process_cancelled prompt channel session h).2]
  · have observed := e.observed_isPrefix
      (2 * ((e.runOf prompt channel session s).limit - (e.runOf prompt channel session s).step))
      (e.runOf prompt channel session s) s.world
    rwa [happenings, performed, ← (e.process_begun prompt channel session h rfl).2.2] at observed

theorem answered_iff (e : Engine World) (prompt channel session : String) (s : Sessions World)
    (text : String) :
    (e.process prompt channel session s).result = .ok text ↔
      ∃ earlier output later, e.outputsOf prompt channel session s = earlier ++ output :: later ∧
        (∀ o ∈ earlier, final? o = none) ∧ final? output = some text := by
  constructor
  · intro answered
    obtain ⟨before, h, same, quiet, verdict⟩ := e.verdict_of_result answered (by simp) (by simp)
    obtain ⟨output, rfl, final⟩ := Happening.verdict?_eq_ok_iff.mp verdict
    refine ⟨outputs before, output, [], ?_, (quiet_iff.mp quiet).1, final⟩
    simp [outputsOf, same, outputs, Happening.output?]
  · rintro ⟨earlier, output, later, same, _, final⟩
    have among : output ∈ e.outputsOf prompt channel session s := by simp [same]
    exact e.result_of_verdict (mem_outputs_iff.mp among)
      (Happening.verdict?_eq_ok_iff.mpr ⟨output, rfl, final⟩)

/-- A verdict is the last thing that happens. -/
theorem eq_nil_of_verdict (e : Engine World) {prompt channel session : String}
    {s : Sessions World} {before after : List Happening} {h : Happening}
    (cut : e.happeningsOf prompt channel session s = before ++ h :: after)
    (decides : h.verdict? ≠ none) : after = [] := by
  rcases e.process_verdict prompt channel session s with
    ⟨_, none_, _⟩ | ⟨front, last, same, quiet, _⟩ | ⟨quiet, _⟩
  · simp [none_] at cut
  · rcases List.eq_nil_or_concat after with rfl | ⟨init, x, rfl⟩
    · rfl
    · have whole : front ++ [last] = (before ++ h :: init) ++ [x] := by
        rw [← same, cut, List.concat_eq_append, List.append_assoc, List.cons_append]
      have fronts : front = before ++ h :: init := (List.append_inj' whole rfl).1
      exact absurd (quiet h (by simp [fronts])) decides
  · exact absurd (quiet h (by simp [cut])) decides

theorem exhausted_iff (e : Engine World) (prompt channel session : String) (s : Sessions World)
    (n : Nat) :
    (e.process prompt channel session s).result = .error (.tooManySteps n) ↔
      n = max e.maxSteps 1 ∧ (e.requestsOf prompt channel session s).length = max e.maxSteps 1 ∧
        (∀ output ∈ e.outputsOf prompt channel session s, final? output = none) ∧
        (∀ reason, .heard (.error reason) ∉ e.happeningsOf prompt channel session s) ∧
        .interrupted ∉ e.happeningsOf prompt channel session s := by
  rw [outputsOf, ← quiet_iff]
  constructor
  · intro usedUp
    rcases e.process_verdict prompt channel session s with
      ⟨_, _, cancelled⟩ | ⟨_, h, _, _, verdict⟩ | ⟨quiet, here, steps⟩
    · simp [usedUp] at cancelled
    · rw [usedUp] at verdict
      rcases Happening.verdict?_cases verdict with ⟨_, h⟩ | ⟨_, h⟩ | h <;> cases h
    · rw [usedUp] at here
      cases here
      have replied := (e.replied_isPrefix prompt channel session s).length_le
      have asked := e.length_outputs_le (e.waitsOf prompt channel session s)
      have bound := e.length_requestsOf_le prompt channel session s
      rw [List.length_map, steps] at replied
      exact ⟨rfl, Nat.le_antisymm bound (Nat.le_trans replied asked), quiet⟩
  · rintro ⟨rfl, asked, quiet⟩
    rcases e.process_verdict prompt channel session s with
      ⟨given, _, _⟩ | ⟨before, h, same, _, verdict⟩ | ⟨_, usedUp, _⟩
    · simp [requestsOf, (e.process_cancelled prompt channel session given).2] at asked
      omega
    · rw [quiet h (by simp [same])] at verdict
      cases verdict
    · exact usedUp

theorem failed_iff (e : Engine World) (prompt channel session : String) (s : Sessions World)
    (reason : String) :
    (e.process prompt channel session s).result = .error (.modelFailed reason) ↔
      .heard (.error reason) ∈ e.happeningsOf prompt channel session s := by
  constructor
  · intro failed
    obtain ⟨before, h, same, _, verdict⟩ := e.verdict_of_result failed (by simp) (by simp)
    rw [same, Happening.verdict?_eq_modelFailed_iff.mp verdict]
    simp
  · exact fun among => e.result_of_verdict among rfl

theorem given_up_iff (e : Engine World) (prompt channel session : String) (s : Sessions World) :
    (e.process prompt channel session s).result = .error .cancelled ↔
      e.cancelled s.world = true ∨ .interrupted ∈ e.happeningsOf prompt channel session s := by
  constructor
  · intro cancelled
    by_cases h : e.cancelled s.world = true
    · exact .inl h
    · obtain ⟨before, x, same, _, verdict⟩ :=
        e.verdict_of_result cancelled (fun given => absurd given h) (by simp)
      rw [same, Happening.verdict?_eq_cancelled_iff.mp verdict]
      simp
  · rintro (h | among)
    · rw [(e.process_cancelled prompt channel session h).1]
    · exact e.result_of_verdict among rfl

/-- **The laws of reasoning.** Whatever the limit, the history and the prompt, whatever the
model replies and whatever comes of the calls: the laws hold. -/
theorem process_loopLaws (e : Engine World) (prompt channel session : String)
    (s : Sessions World) : LoopLaws e prompt channel session s where
  requests_le := e.length_requestsOf_le prompt channel session s
  call_after_request := by
    intro before wait after c outcome cut performs
    by_cases h : e.cancelled s.world = true
    · simp [(e.process_cancelled prompt channel session h).2] at cut
    · rw [(e.process_begun prompt channel session h rfl).2.2] at cut
      exact e.asked_before_call _ rfl cut performs
  request := fun k request asked => e.requestsOf_at asked
  system_once := by
    intro plain
    exact ⟨plain.process e prompt channel session, fun request => e.filter_system_request plain⟩
  replied := e.replied_isPrefix prompt channel session s
  faithful := turns_faithful none _ (by simp)
  observed := e.observedOf_isPrefix prompt channel session s
  answered := e.answered_iff prompt channel session s
  ends := fun before h after cut => e.eq_nil_of_verdict cut
  trimmed := by
    intro output text final
    exact Reply.eq_of_read_answer (final?_eq_some_iff.mp final)
  exhausted := e.exhausted_iff prompt channel session s
  failed := e.failed_iff prompt channel session s
  given_up := e.given_up_iff prompt channel session s
  only := by
    rcases e.process_verdict prompt channel session s with
      ⟨_, _, cancelled⟩ | ⟨_, h, _, _, verdict⟩ | ⟨_, usedUp, _⟩
    · exact .inr (.inr (.inr cancelled))
    · rcases Happening.verdict?_cases verdict with answered | failed | cancelled
      · exact .inl answered
      · exact .inr (.inr (.inl failed))
      · exact .inr (.inr (.inr cancelled))
    · exact .inr (.inl usedUp)

/-- An engine with one step, with whatever model and tools it is given. -/
def brief {World : Type} (tools : List (Tool World))
    (ask : List Message → Act World (Option (Except String String)))
    (cancelled : World → Bool) : Engine World where
  executor := ⟨.ofTools tools, 1⟩
  maxSteps := 1
  maxHistory := 40
  ask := ask
  cancelled := cancelled

/-- Its model fails. -/
def failing : Engine Unit := brief [] (fun _ => return some (.error "down")) fun _ => false

/-- Its model calls a tool during which the world says that waits are to be given up. -/
def interrupting : Engine Bool :=
  brief [⟨"alarm", "", Tool.anyParameters, fun _ => do Act.change fun _ => true; return .hangs⟩]
    (fun _ => return some (.ok "\x7b\"tool\": \"alarm\"\x7d")) id

/-- The model may be asked in every step and reply with no final answer, and the steps are not
what the run ends with: the last of the replies may be a failure, and the call after it may be
given up. -/
theorem not_exhausted :
    (¬ ((failing.process "p" "c" "s" ⟨∅, ()⟩).result = .error (.tooManySteps 1) ↔
      (failing.requestsOf "p" "c" "s" ⟨∅, ()⟩).length = 1 ∧
        ∀ output ∈ failing.outputsOf "p" "c" "s" ⟨∅, ()⟩, final? output = none)) ∧
    ¬ ((interrupting.process "p" "c" "s" ⟨∅, false⟩).result = .error (.tooManySteps 1) ↔
      (interrupting.requestsOf "p" "c" "s" ⟨∅, false⟩).length = 1 ∧
        ∀ output ∈ interrupting.outputsOf "p" "c" "s" ⟨∅, false⟩, final? output = none) := by
  decide +kernel

end Engine

end TriageDesk.Agent
