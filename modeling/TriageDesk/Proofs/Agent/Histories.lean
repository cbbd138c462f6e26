/-
TriageDesk.Proofs.Agent.Histories — what is kept of a session over any number
of visits.

A `Visit` is one piece of reasoning among several: whatever happens in the
world before it, and whenever the world says during it that waits are to be
given up. Its `Account` tells what happened to its run and what came of it,
and `Account.transcript` is what was said in it.

`histories_laws` is the theorem: a session holds the last messages of its
past, as many as there are up to the limit (`KeepsLast`). Its heart is that
truncation may wait: `lastMessages_append` says that the last messages of a
conversation that went on from the last messages of another are the last
messages of both, so the truncation at the end of each visit is as good as one
at the very end. One visit is `history_visit`; all of them follow by induction,
where the invariant is that a session holds the last messages of its past.
-/
import TriageDesk.Model.Script
import TriageDesk.Proofs.Agent.Course

namespace TriageDesk.Agent

/-! ## The last messages of a conversation -/

/-- Of what was said, what is kept is the end, and as much of it as the limit allows. -/
structure KeepsLast (limit : Nat) (said kept : List Message) : Prop where
  isSuffix : kept <:+ said
  length_eq : kept.length = min limit said.length

namespace Engine

theorem keepsLast_lastMessages (limit : Nat) (said : List Message) :
    KeepsLast limit said (lastMessages limit said) where
  isSuffix := List.drop_suffix _ _
  length_eq := by
    simp only [lastMessages, List.length_drop]
    omega

theorem lastMessages_nil (n : Nat) : lastMessages n [] = [] := by
  simp [lastMessages]

/-- Truncation may wait until a conversation has gone on. -/
theorem lastMessages_append (n : Nat) (past said : List Message) :
    lastMessages n (lastMessages n past ++ said) = lastMessages n (past ++ said) := by
  unfold lastMessages
  simp only [List.length_append, List.length_drop]
  -- what is dropped at first would be dropped at the end as well
  have count : past.length + said.length - n =
      (past.length - n) + (past.length - (past.length - n) + said.length - n) := by omega
  rw [count, ← List.drop_drop, List.drop_append_of_le_length (Nat.sub_le _ _)]

/-- Sessions of one channel have keys of their own. -/
theorem sessionKey_inj (channel a b : String) :
    sessionKey channel a = sessionKey channel b ↔ a = b := by
  unfold sessionKey
  simp [toString]

end Engine

/-! ## Visits -/

/-- A piece of reasoning among several. -/
structure Visit (World : Type) where
  session : String
  prompt : String
  /-- What happens in the world before it. -/
  meanwhile : World → World
  /-- Whether the world says that the waits of this visit are to be given up. -/
  cancelled : World → Bool

/-- What came of a visit. -/
structure Account where
  session : String
  prompt : String
  /-- How the waits of its run ended; a visit that was given up at once had none. -/
  happenings : List Happening
  result : Except Failure String

namespace Account

/-- What was said in a visit: the prompt, the two messages of each step, and the
answer, if there was one. -/
def transcript (a : Account) : List Message :=
  ⟨.user, a.prompt⟩ :: ((turns none a.happenings).flatMap Turn.messages ++ answer a.result)

/-- Whether a visit came to an answer or used up its steps. -/
def completed (a : Account) : Bool :=
  match a.result with
  | .ok _ | .error (.tooManySteps _) => true
  | .error _ => false

/-- Whether the result of a visit is one that its happenings justify, where so many
steps were allowed. -/
def Sound (limit : Nat) (a : Account) : Prop :=
  (a.happenings = [] ∧ a.result = .error .cancelled) ∨
    Justified limit limit (turns none a.happenings) a.happenings a.result

end Account

/-- What was said in the visits of a session that came to an answer or used up
their steps, in the order of the visits. -/
def rememberedOf (session : String) (accounts : List Account) : List Message :=
  (accounts.filter fun a => a.session = session && a.completed).flatMap Account.transcript

/-- The visits that are remembered are those that were completed. -/
theorem Account.completed_eq (a : Account) : a.completed = Run.isRemembered a.result := by
  unfold Account.completed Run.isRemembered
  rcases a.result with f | text
  · cases f <;> rfl
  · rfl

namespace Engine

variable {World : Type}

/-- The account of a piece of reasoning. -/
def account (e : Engine World) (prompt channel session : String) (s : Sessions World) : Account :=
  { session, prompt
    happenings := e.happeningsOf prompt channel session s
    result := (e.process prompt channel session s).result }

/-- The engine during a visit. -/
def during (e : Engine World) (v : Visit World) : Engine World :=
  { e with cancelled := v.cancelled }

/-- The sessions as a visit finds them. -/
def before (v : Visit World) (s : Sessions World) : Sessions World :=
  { s with world := v.meanwhile s.world }

/-- One visit: its account, and the sessions after it. -/
def visit (e : Engine World) (channel : String) (v : Visit World) (s : Sessions World) :
    Account × Sessions World :=
  ((e.during v).account v.prompt channel v.session (before v s),
    ((e.during v).process v.prompt channel v.session (before v s)).world)

/-- The accounts of some visits, one after the other. -/
def accounts (e : Engine World) (channel : String) :
    List (Visit World) → Sessions World → List Account
  | [], _ => []
  | v :: rest, s => (e.visit channel v s).1 :: e.accounts channel rest (e.visit channel v s).2

/-- The sessions after some visits. -/
def afterVisits (e : Engine World) (channel : String) :
    List (Visit World) → Sessions World → Sessions World
  | [], s => s
  | v :: rest, s => e.afterVisits channel rest (e.visit channel v s).2

/-! ## One visit -/

/-- What a run that was started says behind the history, and why it has its result. -/
theorem finish_told (e : Engine World) (w : World) {r : Run} {session system prompt : String}
    {limit : Nat} {past : List Message} (positive : 0 < limit)
    (started : r = .start session system limit past prompt) :
    (e.finish r w).result.session = session ∧
      (e.finish r w).result.conversation =
        past ++ ⟨.user, prompt⟩ ::
          ((turns none (e.happenings (2 * (r.limit - r.step)) r w)).flatMap Turn.messages ++
            answer (result (e.finish r w).result)) ∧
      Justified limit limit (turns none (e.happenings (2 * (r.limit - r.step)) r w))
        (e.happenings (2 * (r.limit - r.step)) r w) (result (e.finish r w).result) := by
  have course := e.advances_course (2 * (r.limit - r.step)) r w
  have ended := e.isEnded_finish session system prompt positive past w
  rw [← started] at ended
  cases phase : (e.finish r w).result.phase with
  | asking | performing c output => simp [Run.isEnded, phase] at ended
  | ended outcome =>
    have told := course.told (by rw [started]; exact positive) (by rw [started]; rfl) phase
    have hresult : result (e.finish r w).result = outcome := by simp [result, phase]
    rw [hresult]
    refine ⟨?_, ?_, ?_⟩
    · rw [finish, course.session_eq, started]
      rfl
    · have conversation := told.conversation
      rw [started] at conversation ⊢
      rw [finish, conversation]
      simp [Run.start, Run.pending?]
    · have justified := told.justified
      rw [started] at justified ⊢
      simpa [Run.start, Run.pending?] using justified

/-- **One piece of reasoning.** Its result is justified; where it is one to be
remembered, the session goes on from its history with what was said, and
otherwise nothing that is kept of any session changes. -/
theorem process_spec (e : Engine World) (prompt channel session : String) (s : Sessions World) :
    (e.account prompt channel session s).Sound (max e.maxSteps 1) ∧
      (e.process prompt channel session s).world.histories =
        if Run.isRemembered (e.process prompt channel session s).result then
          s.histories.insert (sessionKey channel session)
            (lastMessages e.maxHistory
              (history s channel session ++ (e.account prompt channel session s).transcript))
        else s.histories := by
  by_cases h : e.cancelled s.world = true
  · obtain ⟨hprocess, hwaits⟩ := e.process_cancelled prompt channel session h
    rw [account, happeningsOf, hprocess, hwaits]
    exact ⟨Or.inl ⟨rfl, rfl⟩, rfl⟩
  · generalize begun : e.runOf prompt channel session s = r
    obtain ⟨hresult, hworld, hwaits⟩ := e.process_begun prompt channel session h begun.symm
    obtain ⟨hsession, hconversation, justified⟩ :=
      e.finish_told s.world (Nat.lt_of_lt_of_le Nat.one_pos (Nat.le_max_right _ _)) begun.symm
    rw [account, happeningsOf, hresult, hworld, hwaits]
    refine ⟨Or.inr justified, ?_⟩
    rw [remember, hsession, hconversation]
    rfl

/-- What one visit does to all that is kept. -/
theorem visit_histories (e : Engine World) (channel : String) (v : Visit World)
    (s : Sessions World) :
    (e.visit channel v s).2.histories =
      if (e.visit channel v s).1.completed then
        s.histories.insert (sessionKey channel v.session)
          (lastMessages e.maxHistory
            (history s channel v.session ++ (e.visit channel v s).1.transcript))
      else s.histories := by
  rw [Account.completed_eq]
  exact ((e.during v).process_spec v.prompt channel v.session (before v s)).2

/-- What one visit does to the history of any session of its channel. -/
theorem history_visit (e : Engine World) (channel : String) (v : Visit World)
    (s : Sessions World) (session : String) :
    history (e.visit channel v s).2 channel session =
      if v.session = session ∧ (e.visit channel v s).1.completed then
        lastMessages e.maxHistory
          (history s channel session ++ (e.visit channel v s).1.transcript)
      else history s channel session := by
  unfold history
  rw [visit_histories]
  by_cases completed : (e.visit channel v s).1.completed = true
  · rw [if_pos completed, Table.get?_insert]
    by_cases same : v.session = session
    · subst same
      rw [if_pos rfl, if_pos ⟨rfl, completed⟩]
      rfl
    · have keys : sessionKey channel session ≠ sessionKey channel v.session := by
        rw [Ne, sessionKey_inj]
        exact Ne.symm same
      rw [if_neg keys, if_neg (fun both => same both.1)]
  · rw [if_neg completed, if_neg (fun both => completed both.2)]

/-! ## Any number of visits -/

theorem afterVisits_append (e : Engine World) (channel : String) (first then_ : List (Visit World))
    (s : Sessions World) :
    e.afterVisits channel (first ++ then_) s =
      e.afterVisits channel then_ (e.afterVisits channel first s) := by
  induction first generalizing s with
  | nil => rfl
  | cons v rest ih => exact ih _

/-- A session that holds the last messages of its past still does so after any visits. -/
theorem history_afterVisits (e : Engine World) (channel : String) (visits : List (Visit World))
    (s : Sessions World) (session : String) (past : List Message)
    (holds : history s channel session = lastMessages e.maxHistory past) :
    history (e.afterVisits channel visits s) channel session =
      lastMessages e.maxHistory (past ++ rememberedOf session (e.accounts channel visits s)) := by
  induction visits generalizing s past with
  | nil => simpa [afterVisits, accounts, rememberedOf] using holds
  | cons v rest ih =>
    have next := e.history_visit channel v s session
    have name : (e.visit channel v s).1.session = v.session := rfl
    simp only [afterVisits, accounts, rememberedOf, List.filter_cons, name]
    by_cases counts : v.session = session ∧ (e.visit channel v s).1.completed = true
    · rw [if_pos counts, holds, lastMessages_append] at next
      rw [ih _ _ next, rememberedOf, if_pos (by simpa using counts), List.flatMap_cons,
        List.append_assoc]
    · rw [if_neg counts, holds] at next
      rw [ih _ _ next, rememberedOf, if_neg (by simpa using counts)]

theorem sound_of_mem_accounts (e : Engine World) (channel : String) (visits : List (Visit World))
    (s : Sessions World) : ∀ a ∈ e.accounts channel visits s, a.Sound (max e.maxSteps 1) := by
  induction visits generalizing s with
  | nil => simp [accounts]
  | cons v rest ih =>
    intro a ha
    rcases List.mem_cons.mp ha with rfl | ha
    · exact ((e.during v).process_spec v.prompt channel v.session (before v s)).1
    · exact ih _ a ha

/-- The laws of what is kept of the sessions of a channel over some visits, which begin
where nothing is kept. -/
structure HistoryLaws (e : Engine World) (channel : String) (visits : List (Visit World))
    (w : World) : Prop where
  /-- A session holds the last messages of what was said in its visits that came to an
  answer or used up their steps. -/
  keeps : ∀ session, KeepsLast e.maxHistory (rememberedOf session (e.accounts channel visits ⟨∅, w⟩))
    (history (e.afterVisits channel visits ⟨∅, w⟩) channel session)
  /-- A visit that failed in the model or was given up leaves all that is kept as it was. -/
  unremembered : ∀ (pre : List (Visit World)) (v : Visit World) (post : List (Visit World)),
    visits = pre ++ v :: post →
    let s := e.afterVisits channel pre ⟨∅, w⟩
    ((∃ reason, (e.visit channel v s).1.result = .error (.modelFailed reason)) ∨
      (e.visit channel v s).1.result = .error .cancelled) →
    (e.afterVisits channel (pre ++ [v]) ⟨∅, w⟩).histories = s.histories
  /-- The happenings of each visit, from which what was said in it is told, are such as
  lead to its result. -/
  sound : ∀ a ∈ e.accounts channel visits ⟨∅, w⟩, a.Sound (max e.maxSteps 1)

/-- **The histories of sessions.** Whatever visits are paid in a channel, what the model
replies, what comes of the calls and when the visits are given up: the laws hold. -/
theorem histories_laws (e : Engine World) (channel : String) (visits : List (Visit World))
    (w : World) : HistoryLaws e channel visits w where
  keeps := by
    intro session
    have nothing : history (⟨∅, w⟩ : Sessions World) channel session =
        lastMessages e.maxHistory [] := by
      rw [lastMessages_nil]
      rfl
    rw [e.history_afterVisits channel visits ⟨∅, w⟩ session [] nothing]
    exact keepsLast_lastMessages _ _
  unremembered := by
    intro pre v post _ s unkept
    have dropped : (e.visit channel v s).1.completed = false := by
      unfold Account.completed
      rcases unkept with ⟨reason, h⟩ | h <;> rw [h]
    rw [afterVisits_append]
    show (e.visit channel v s).2.histories = s.histories
    rw [visit_histories, dropped]
    rfl
  sound := e.sound_of_mem_accounts channel visits ⟨∅, w⟩

/-- An engine that keeps three messages of a session, with a model whose replies are laid down. -/
def forgetful : Engine Model.Script where
  executor := ⟨⟨∅⟩, 1⟩
  maxSteps := 4
  maxHistory := 3
  ask := Model.Script.complete
  cancelled _ := false

/-- A visit during which nothing else happens. -/
def plainly (session prompt : String) : Visit Model.Script := ⟨session, prompt, id, fun _ => false⟩

/-- Of two visits of a session, in which four messages were said, the last three are kept; a visit
in which the model failed and one of another session make no difference. -/
theorem histories_laws_capped :
    let visits := [plainly "a" "first", plainly "b" "other", plainly "a" "lost", plainly "a" "again"]
    let script := Model.Script.ofReplies
      [some (.ok "a1"), some (.ok "b1"), some (.error "down"), some (.ok "a2")]
    HistoryLaws forgetful "secops" visits script ∧
      rememberedOf "a" (forgetful.accounts "secops" visits ⟨∅, script⟩) =
        [⟨.user, "first"⟩, ⟨.assistant, "a1"⟩, ⟨.user, "again"⟩, ⟨.assistant, "a2"⟩] ∧
      history (forgetful.afterVisits "secops" visits ⟨∅, script⟩) "secops" "a" =
        [⟨.assistant, "a1"⟩, ⟨.user, "again"⟩, ⟨.assistant, "a2"⟩] :=
  ⟨forgetful.histories_laws _ _ _, by decide +kernel, by decide +kernel⟩

end Engine

end TriageDesk.Agent
