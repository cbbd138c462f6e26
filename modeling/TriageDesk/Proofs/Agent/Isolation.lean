/-
TriageDesk.Proofs.Agent.Isolation — which sessions are kept apart.

A session is named by its channel and a name of its own, and its messages are
kept under one key made of both. A piece of reasoning in one session asks the
model about the history of that key and what was said since (`request_told`)
and touches no other key (`get?_process`), so it is isolated from every session
of another key (`isolated_of_key_ne`).

The key does not always tell two sessions apart: the colon that joins its parts
may stand in either of them (`key_eq_iff`). `isolated_iff` says that this is
the only exception, and `shared_history` shows it at work.
-/
import Mathlib.Data.List.Basic
import TriageDesk.Proofs.Agent.Histories

namespace TriageDesk.Agent

/-! ## Addresses -/

/-- What names a session. -/
structure Address where
  channel : String
  session : String
deriving DecidableEq, Repr

namespace Address

/-- The key under which the messages of a session are kept. -/
def key (a : Address) : String := Engine.sessionKey a.channel a.session

/-- Two addresses are one text, of which the first takes less for its channel. -/
def Recut (a b : Address) : Prop :=
  ∃ between, b.channel = a.channel ++ ":" ++ between ∧ a.session = between ++ ":" ++ b.session

theorem toList_key (a : Address) : a.key.toList = a.channel.toList ++ ':' :: a.session.toList := by
  simp [key, Engine.sessionKey, toString]

theorem recut_iff {a b : Address} : Recut a b ↔ ∃ between : List Char,
    b.channel.toList = a.channel.toList ++ ':' :: between ∧
      a.session.toList = between ++ ':' :: b.session.toList := by
  constructor
  · rintro ⟨between, channel, session⟩
    exact ⟨between.toList, by simp [channel], by simp [session]⟩
  · rintro ⟨between, channel, session⟩
    refine ⟨String.ofList between, ?_, ?_⟩
    · rw [← String.toList_inj, channel]
      simp
    · rw [← String.toList_inj, session]
      simp

/-- **Sessions of one key** are the same, or their addresses are one text that is cut at
different colons. -/
theorem key_eq_iff {a b : Address} : a.key = b.key ↔ a = b ∨ Recut a b ∨ Recut b a := by
  have same : a = b ↔
      a.channel.toList = b.channel.toList ∧ a.session.toList = b.session.toList := by
    rw [String.toList_inj, String.toList_inj]
    cases a
    cases b
    simp
  rw [← String.toList_inj, toList_key, toList_key, recut_iff, recut_iff, same]
  constructor
  · intro keys
    rcases List.append_eq_append_iff.mp keys with ⟨more, channel, rest⟩ | ⟨more, channel, rest⟩
    · cases more with
      | nil => simp_all
      | cons c between =>
        obtain ⟨rfl, session⟩ := List.cons_eq_cons.mp rest
        exact .inr (.inl ⟨between, channel, session⟩)
    · cases more with
      | nil => simp_all
      | cons c between =>
        obtain ⟨rfl, session⟩ := List.cons_eq_cons.mp rest
        exact .inr (.inr ⟨between, channel, session⟩)
  · rintro (⟨channel, session⟩ | ⟨between, channel, session⟩ | ⟨between, channel, session⟩)
    · rw [channel, session]
    · simp [channel, session]
    · simp [channel, session]

end Address

/-! ## What the model is asked -/

namespace Engine

variable {World : Type}

/-- The request that is made in a wait. -/
def asked? (wait : Run × World) : Option (List Message) :=
  match wait.1.phase with
  | .asking => some wait.1.request
  | _ => none

/-- The requests to the model in a piece of reasoning. -/
def requestsOf (e : Engine World) (prompt channel session : String) (s : Sessions World) :
    List (List Message) :=
  (e.waitsOf prompt channel session s).filterMap asked?

/-- What a run asks the model: its instructions, the conversation with which it began, and
the messages of the steps that it has taken since. -/
def Tells (r : Run) (hs : List Happening) (request : List Message) : Prop :=
  ∃ said, said <+: turns r.pending? hs ∧
    request = ⟨.system, r.system⟩ :: (r.conversation ++ said.flatMap Turn.messages)

theorem asked?_eq_some_iff {wait : Run × World} {request : List Message} :
    asked? wait = some request ↔ wait.1.phase = .asking ∧ wait.1.request = request := by
  unfold asked?
  cases wait.1.phase <;> simp

/-- Every request of a run is told by the happenings before it. -/
theorem tells_of_mem_waits (e : Engine World) (n : Nat) (r : Run) (w : World) :
    ∀ request ∈ (e.waits n r w).filterMap asked?, Tells r (e.happenings n r w) request := by
  intro request sent
  obtain ⟨⟨m, v⟩, among, asks⟩ := List.mem_filterMap.mp sent
  obtain ⟨before, after, cut⟩ := List.append_of_mem among
  obtain ⟨course, underway⟩ := e.course_to_wait n cut
  have going := course.going underway
  refine ⟨turns r.pending? (before.map fun wait => e.happening wait.1 wait.2), ?_, ?_⟩
  · rw [happenings, cut, List.map_append, going.later]
    exact List.prefix_append _ _
  · rw [← (asked?_eq_some_iff.mp asks).2, Run.request, going.system, going.conversation]

/-- **What the model is asked** in a piece of reasoning: its instructions, the history of
the session, the prompt, and the steps that were taken since. -/
theorem request_told (e : Engine World) (prompt channel session : String) (s : Sessions World) :
    ∀ request ∈ e.requestsOf prompt channel session s,
      ∃ said, said <+: turns none (e.happeningsOf prompt channel session s) ∧
        request = ⟨.system, e.systemPrompt⟩ ::
          (history s channel session ++ ⟨.user, prompt⟩ :: said.flatMap Turn.messages) := by
  intro request sent
  unfold requestsOf at sent
  unfold happeningsOf
  by_cases h : e.cancelled s.world = true
  · rw [(e.process_cancelled prompt channel session h).2] at sent
    cases sent
  · rw [(e.process_begun prompt channel session h rfl).2.2] at sent ⊢
    obtain ⟨said, front, same⟩ := e.tells_of_mem_waits _ _ _ request sent
    refine ⟨said, front, ?_⟩
    rw [same]
    simp [runOf, Run.start]

/-! ## What a piece of reasoning touches -/

/-- A piece of reasoning keeps messages under the key of its session alone. -/
theorem get?_process (e : Engine World) (prompt channel session : String) (s : Sessions World)
    {key : String} (other : key ≠ sessionKey channel session) :
    (e.process prompt channel session s).world.histories.get? key = s.histories.get? key := by
  rw [(e.process_spec prompt channel session s).2]
  split_ifs
  · rw [Table.get?_insert, if_neg other]
  · rfl

/-- What a piece of reasoning makes of the history of its session. -/
theorem history_process (e : Engine World) (prompt channel session : String) (s : Sessions World) :
    history (e.process prompt channel session s).world channel session =
      if Run.isRemembered (e.process prompt channel session s).result then
        lastMessages e.maxHistory
          (history s channel session ++ (e.account prompt channel session s).transcript)
      else history s channel session := by
  unfold history
  rw [(e.process_spec prompt channel session s).2]
  split_ifs
  · rw [Table.get?_insert, if_pos rfl]
    rfl
  · rfl

/-- A piece of reasoning looks at the world and at the history of its session alone. -/
theorem process_congr (e : Engine World) (prompt : String) {channel session : String}
    {s t : Sessions World} (world : s.world = t.world)
    (same : history s channel session = history t channel session) :
    e.requestsOf prompt channel session s = e.requestsOf prompt channel session t ∧
      (e.process prompt channel session s).result = (e.process prompt channel session t).result ∧
      (e.process prompt channel session s).world.world =
        (e.process prompt channel session t).world.world ∧
      history (e.process prompt channel session s).world channel session =
        history (e.process prompt channel session t).world channel session := by
  have run : e.runOf prompt channel session s = e.runOf prompt channel session t := by
    rw [runOf, runOf, same]
  have waits : e.waitsOf prompt channel session s = e.waitsOf prompt channel session t := by
    rw [waitsOf, waitsOf, run, world]
  have outcome : (e.process prompt channel session s).result =
        (e.process prompt channel session t).result ∧
      (e.process prompt channel session s).world.world =
        (e.process prompt channel session t).world.world := by
    by_cases h : e.cancelled s.world = true
    · rw [(e.process_cancelled prompt channel session h).1,
        (e.process_cancelled prompt channel session (world ▸ h)).1]
      exact ⟨rfl, world⟩
    · obtain ⟨result, after, _⟩ := e.process_begun prompt channel session h rfl
      obtain ⟨result', after', _⟩ := e.process_begun prompt channel session (world ▸ h) rfl
      rw [result, result', after, after', run, world]
      exact ⟨rfl, rfl⟩
  have told : e.account prompt channel session s = e.account prompt channel session t := by
    rw [account, account, happeningsOf, happeningsOf, waits, outcome.1]
  refine ⟨by rw [requestsOf, requestsOf, waits], outcome.1, outcome.2, ?_⟩
  rw [history_process, history_process, outcome.1, told, same]

/-! ## Isolation -/

/-- What isolates a session from another one during a piece of reasoning in it. -/
structure Isolated (e : Engine World) (prompt : String) (own other : Address) (s : Sessions World) :
    Prop where
  /-- What is kept of the other session stays as it was. -/
  kept : history (e.process prompt own.channel own.session s).world other.channel other.session =
    history s other.channel other.session
  /-- A request holds the instructions, the history of the own session, the prompt and the
  steps taken so far, and nothing else. -/
  told : ∀ request ∈ e.requestsOf prompt own.channel own.session s,
    ∃ said, said <+: turns none (e.happeningsOf prompt own.channel own.session s) ∧
      request = ⟨.system, e.systemPrompt⟩ ::
        (history s own.channel own.session ++ ⟨.user, prompt⟩ :: said.flatMap Turn.messages)
  /-- Whatever were kept of the other session, the requests, the result and what is kept of
  the own session would be the same. -/
  unseen : ∀ messages : List Message,
    let t : Sessions World := { s with histories := s.histories.insert other.key messages }
    e.requestsOf prompt own.channel own.session t =
        e.requestsOf prompt own.channel own.session s ∧
      (e.process prompt own.channel own.session t).result =
        (e.process prompt own.channel own.session s).result ∧
      history (e.process prompt own.channel own.session t).world own.channel own.session =
        history (e.process prompt own.channel own.session s).world own.channel own.session

/-- Sessions of different keys are isolated. -/
theorem isolated_of_key_ne (e : Engine World) (prompt : String) {own other : Address}
    (apart : own.key ≠ other.key) (s : Sessions World) : Isolated e prompt own other s where
  kept := by
    show (Table.get? _ other.key).getD [] = (Table.get? _ other.key).getD []
    rw [e.get?_process prompt own.channel own.session s apart.symm]
  told := e.request_told prompt own.channel own.session s
  unseen := by
    intro messages t
    have same : history t own.channel own.session = history s own.channel own.session := by
      show (Table.get? _ own.key).getD [] = (Table.get? _ own.key).getD []
      rw [Table.get?_insert, if_neg apart]
    have world : t.world = s.world := rfl
    obtain ⟨requests, result, _, kept⟩ := e.process_congr prompt world same
    exact ⟨requests, result, kept⟩

/-- An engine with one step and two messages a session, whose model says the same each time. -/
def parrot (reply : String) : Engine Unit where
  executor := ⟨⟨∅⟩, 1⟩
  maxSteps := 1
  maxHistory := 2
  ask _ := return some (.ok reply)
  cancelled _ := false

/-- What is kept of a session that was nothing before, after the parrot has spoken in it. -/
theorem history_parrot (own : Address) :
    history ((parrot "x").process "p" own.channel own.session ⟨∅, ()⟩).world
      own.channel own.session = [⟨.user, "p"⟩, ⟨.assistant, "x"⟩] := by
  rw [history_process]
  rfl

/-- **Which sessions are isolated.** Whatever the engine, the state, the prompt and the
outcome: a session is isolated from every other one, unless the two addresses are one text
that is cut into channel and name at different colons. -/
theorem isolated_iff (own other : Address) :
    (∀ (World : Type) (e : Engine World) (prompt : String) (s : Sessions World),
        Isolated e prompt own other s) ↔
      own ≠ other ∧ ¬ own.Recut other ∧ ¬ other.Recut own := by
  have apart : own ≠ other ∧ ¬ own.Recut other ∧ ¬ other.Recut own ↔ own.key ≠ other.key := by
    rw [Ne, Ne, Address.key_eq_iff, not_or, not_or]
  rw [apart]
  constructor
  · intro isolated keys
    have kept := (isolated Unit (parrot "x") "p" ⟨∅, ()⟩).kept
    have shared (s : Sessions Unit) : history s other.channel other.session =
        history s own.channel own.session := by
      show (s.histories.get? other.key).getD [] = (s.histories.get? own.key).getD []
      rw [keys]
    rw [shared, shared, history_parrot] at kept
    cases kept
  · exact fun apart World e prompt s => e.isolated_of_key_ne prompt apart s

/-- The session `c` of a channel with a colon in its name, and the session `b:c` of the
channel before that colon: what is said in the first is kept of the second, and the model is
told of it there. -/
theorem shared_history :
    let first : Address := ⟨"a:b", "c"⟩
    let second : Address := ⟨"a", "b:c"⟩
    let after := ((parrot "x").process "p" first.channel first.session ⟨∅, ()⟩).world
    first ≠ second ∧
      history (⟨∅, ()⟩ : Sessions Unit) second.channel second.session = [] ∧
      history after second.channel second.session = [⟨.user, "p"⟩, ⟨.assistant, "x"⟩] ∧
      ∃ request ∈ (parrot "y").requestsOf "q" second.channel second.session after,
        ⟨.user, "p"⟩ ∈ request := by
  intro first second after
  have kept : history after second.channel second.session = [⟨.user, "p"⟩, ⟨.assistant, "x"⟩] :=
    history_parrot first
  have asked : (parrot "y").requestsOf "q" second.channel second.session after =
      [⟨.system, (parrot "y").systemPrompt⟩ ::
        (history after second.channel second.session ++ [⟨.user, "q"⟩])] := rfl
  refine ⟨by decide, rfl, kept, ?_⟩
  rw [asked, kept]
  exact ⟨_, List.mem_singleton.mpr rfl, by simp⟩

end Engine

end TriageDesk.Agent
