/-
TriageDesk.Proofs.Web.Course — everything that happens at the front, as data.

A `Move` is one thing that happens there: the front opens, a proposal is
created, decided on, handed in again or dropped, word of one is forwarded to the
feed, or a client comes to read the feed or reads what there is. Moves of
different parties come in any order, so a list of moves is an interleaving.

What a move does is said once for each part of the front: for the channel of new
proposals (`channel_perform`), for what was sent (`sent_perform`), for whether word is
forwarded (`forwarding_perform`), and for the readers (`reading_spec`,
`readers_perform`). A client reads through `Feed.nexts`,
which gives it what is within reach (`Feed.nexts_eq`).
-/
import TriageDesk.Proofs.Proposal.Course
import TriageDesk.Proofs.Trace
import TriageDesk.Web.Front

namespace TriageDesk.Web

/-! ## Reading the feed -/

namespace Feed

/-- How many events a reader gets who asks for so many at most. -/
def granted (f : Feed) (limit : Nat) (r : Reader) : Nat := min limit (f.sent.length - f.position r)

/-- The place of a reader after it was given so many events. -/
def cursorAfter (f : Feed) (limit : Nat) (r : Reader) : Nat :=
  if f.granted limit r = 0 then r.cursor else f.position r + f.granted limit r

theorem position_next (f : Feed) (r : Reader) :
    f.position { r with cursor := f.position r + 1 } = f.position r + 1 := by
  unfold position
  simp only
  omega

/-- A reader is given what follows its place, and goes on from behind it. -/
theorem nexts_eq (f : Feed) (limit : Nat) (r : Reader) :
    f.nexts limit r = ((f.sent.drop (f.position r)).take limit,
      { r with cursor := f.cursorAfter limit r }) := by
  induction limit generalizing r with
  | zero => simp [nexts, cursorAfter, granted]
  | succ limit ih =>
    by_cases more : f.position r < f.sent.length
    · have next : f.next? r =
          some (f.sent[f.position r], { r with cursor := f.position r + 1 }) := by
        simp [next?, more]
      have place := position_next f r
      have count : f.granted (limit + 1) r =
          f.granted limit { r with cursor := f.position r + 1 } + 1 := by
        unfold granted
        rw [place]
        omega
      have cursor : f.cursorAfter limit { r with cursor := f.position r + 1 } =
          f.cursorAfter (limit + 1) r := by
        rw [cursorAfter, cursorAfter, count, place]
        split <;> simp only [Nat.add_one_ne_zero, if_false] <;> omega
      rw [nexts, next]
      simp only [ih, place, cursor]
      rw [List.drop_eq_getElem_cons more, List.take_succ_cons]
    · have none : f.next? r = none := by simp [next?, more]
      have count : f.granted (limit + 1) r = 0 := by
        unfold granted
        omega
      rw [nexts, none, cursorAfter, count, List.drop_eq_nil_of_le (by omega)]
      simp

/-- The text of a proposal in a frame. -/
def Frame.data? : Frame → Option String
  | .proposal data => some data
  | .keepAlive => none

@[simp] theorem Frame.filterMap_proposals (events : List String) :
    (events.map .proposal).filterMap Frame.data? = events := by
  rw [List.filterMap_map]
  exact List.filterMap_some

theorem ready_spec (f : Feed) (r : Reader) (now : Nat) :
    (f.ready r now).1.filterMap Frame.data? = f.sent.drop (f.position r) ∧
      (f.ready r now).2.cursor = f.cursorAfter f.sent.length r := by
  have whole : (f.sent.drop (f.position r)).take f.sent.length = f.sent.drop (f.position r) :=
    List.take_of_length_le (by simp)
  rw [ready, nexts_eq, whole]
  cases f.sent.drop (f.position r) with
  | nil =>
    simp only
    split <;> exact ⟨rfl, rfl⟩
  | cons event events => exact ⟨Frame.filterMap_proposals _, rfl⟩

end Feed

namespace Front

/-! ## Moves -/

/-- Gives the reader of a number at most so many events. -/
def poll (n limit : Nat) : Act Front (List Feed.Frame) := do
  let f ← Act.look
  match f.feed.readers[n]? with
  | none => return []
  | some r =>
    let (events, r) := f.feed.nexts limit r
    Act.change fun f => { f with feed := { f.feed with readers := f.feed.readers.set n r } }
    return events.map .proposal

/-- Something that happens at the front. -/
inductive Move
  | start
  | create (p : Proposal)
  | decide (id : String) (d : Proposal.Decision)
  | resubmit (id : String) (params : Parameters)
  | delete (id : String)
  /-- Word of one proposal is forwarded. -/
  | forward
  /-- A client comes. -/
  | subscribe (now : Nat)
  /-- A client reads so many events at most. -/
  | poll (n limit : Nat)
  /-- A client reads all there is. -/
  | read (n now : Nat)

/-- What comes of a move. -/
inductive Answer
  | done
  | stored (id : String)
  | frames (fs : List Feed.Frame)

namespace Move

/-- Makes a move. -/
def perform : Move → Act Front Answer
  | .start => do
    Front.start
    return .done
  | .create p => do return .stored (← onDesk (Desk.createProposal p))
  | .decide id d => do
    let _ ← onDesk (Desk.decideProposal id d)
    return .done
  | .resubmit id params => do
    let _ ← onDesk (Desk.resubmitProposal id params)
    return .done
  | .delete id => do
    let _ ← onDesk (Desk.onStore (Proposal.Store.delete id))
    return .done
  | .forward => do
    forwardOne
    return .done
  | .subscribe now => do
    Front.subscribe now
    return .done
  | .poll n limit => do return .frames (← Front.poll n limit)
  | .read n now => do return .frames (← Front.read n now)

/-- The client for whom a move reads. -/
def reader? : Move → Option Nat
  | .poll n _ => some n
  | .read n _ => some n
  | _ => none

/-- Whether a move matters for a client: reading for another one does not. -/
def concerns (n : Nat) (m : Move) : Bool := m.reader?.all (· = n)

/-- How many events a move reads at most. -/
def limit (m : Move) (f : Feed) : Nat :=
  match m with
  | .poll _ limit => limit
  | _ => f.sent.length

/-- The readers after a move that reads for nobody: those there are, and one who comes. -/
def join (m : Move) (f : Feed) : List Feed.Reader :=
  match m with
  | .subscribe now => f.readers ++ [⟨f.sent.length, now⟩]
  | _ => f.readers

end Move

/-- The front with other readers. -/
def withReaders (f : Front) (readers : List Feed.Reader) : Front :=
  { f with feed := { f.feed with readers } }

/-- A proposal as the desk stores it next. -/
def stamp (f : Front) (p : Proposal) : Proposal :=
  p.stamped (f.desk.supply.name f.desk.supply.namesDrawn)
    (f.desk.supply.instant f.desk.supply.instantsDrawn)

/-! ## What a move does -/

theorem start_world (f : Front) :
    (start f).world =
      { f with
        desk := { f.desk with
          store := { f.desk.store with channel := f.desk.store.channel.take.2 } }
        forwarding := f.forwarding || !f.desk.store.channel.taken } := by
  obtain ⟨⟨⟨_, ⟨_, _, taken, _⟩⟩, _, _, _, _⟩, _, forwarding⟩ := f
  cases taken <;> cases forwarding <;> rfl

/-- Word of the oldest proposal that waits goes to the feed. -/
theorem forwardOne_world (f : Front) :
    (forwardOne f).world =
      if f.forwarding then
        { f with
          desk := { f.desk with
            store := { f.desk.store with channel := f.desk.store.channel.receive.2 } }
          feed := { f.feed with
            sent := f.feed.sent ++
              (f.desk.store.channel.waiting.head?.map (·.toJson.compact)).toList } }
      else f := by
  obtain ⟨⟨⟨_, ⟨_, waiting, _, _⟩⟩, _, _, _, _⟩, ⟨sent, _⟩, forwarding⟩ := f
  cases forwarding with
  | false => rfl
  | true =>
    cases waiting with
    | nil =>
      simp [forwardOne, onDesk, Desk.onStore, Proposal.Store.receive, Proposal.Channel.receive]
    | cons p rest => rfl

variable {m : Move} {f : Front} {n : Nat} {r : Feed.Reader}

theorem reading_absent (reads : m.reader? = some n) (absent : f.feed.readers[n]? = none) :
    (m.perform f).result = .frames [] ∧ (m.perform f).world = f := by
  cases m with
  | poll i limit =>
    cases reads
    simp [Move.perform, poll, absent]
  | read i now =>
    cases reads
    simp [Move.perform, read, Feed.read, absent]
  | _ => cases reads

/-- Reading gives a client what is within reach, moves its own place behind it, and changes
nothing else. -/
theorem reading_spec (reads : m.reader? = some n) (present : f.feed.readers[n]? = some r) :
    ∃ frames r', (m.perform f).result = .frames frames ∧
      (m.perform f).world = f.withReaders (f.feed.readers.set n r') ∧
      frames.filterMap Feed.Frame.data? =
        (f.feed.sent.drop (f.feed.position r)).take (m.limit f.feed) ∧
      r'.cursor = f.feed.cursorAfter (m.limit f.feed) r := by
  cases m with
  | poll i limit =>
    cases reads
    refine ⟨((f.feed.sent.drop (f.feed.position r)).take limit).map .proposal,
      { r with cursor := f.feed.cursorAfter limit r }, ?_, ?_, ?_, rfl⟩
    · simp [Move.perform, poll, present, Feed.nexts_eq]
    · simp [Move.perform, poll, present, Feed.nexts_eq, withReaders]
    · exact Feed.Frame.filterMap_proposals _
  | read i now =>
    cases reads
    have spec := f.feed.ready_spec r now
    have whole : (f.feed.sent.drop (f.feed.position r)).take f.feed.sent.length =
        f.feed.sent.drop (f.feed.position r) := List.take_of_length_le (by simp)
    refine ⟨_, _, ?_, ?_, spec.1.trans whole.symm, spec.2⟩
    · simp [Move.perform, read, Feed.read, present]
    · simp [Move.perform, read, Feed.read, present, withReaders]
  | _ => cases reads

/-- What does not depend on the readers stays when somebody reads. -/
theorem reading_keeps {α : Type} (reads : m.reader? = some n) (view : Front → α)
    (same : ∀ readers, view (f.withReaders readers) = view f) :
    view (m.perform f).world = view f := by
  cases present : f.feed.readers[n]? with
  | none => rw [(reading_absent reads present).2]
  | some r =>
    obtain ⟨_, _, _, world, _⟩ := reading_spec reads present
    rw [world, same]

/-- A move that reads for nobody does the same whoever the readers are. -/
theorem idle_perform (idle : m.reader? = none) (f : Front) (readers : List Feed.Reader) :
    (m.perform (f.withReaders readers)).world =
      (m.perform f).world.withReaders (m.join (f.withReaders readers).feed) := by
  cases m with
  | start => exact (start_world _).trans (congrArg (withReaders · readers) (start_world f)).symm
  | forward =>
    refine (forwardOne_world _).trans (Eq.trans ?_
      (congrArg (withReaders · readers) (forwardOne_world f)).symm)
    show (if f.forwarding then _ else _) = withReaders (if f.forwarding then _ else _) readers
    split <;> rfl
  | poll => cases idle
  | read => cases idle
  | _ => rfl

theorem readers_perform (idle : m.reader? = none) (f : Front) :
    (m.perform f).world.feed.readers = m.join f.feed :=
  congrArg (·.feed.readers) (idle_perform idle f f.feed.readers)

/-- What was sent after a move: what had been, and the word that was forwarded. -/
theorem sent_perform (m : Move) (f : Front) :
    (m.perform f).world.feed.sent =
      match m with
      | .forward =>
        if f.forwarding then
          f.feed.sent ++ (f.desk.store.channel.waiting.head?.map (·.toJson.compact)).toList
        else f.feed.sent
      | _ => f.feed.sent := by
  cases m with
  | start => exact congrArg (·.feed.sent) (start_world f)
  | forward =>
    show (forwardOne f).world.feed.sent = _
    rw [forwardOne_world]
    split <;> rfl
  | poll n limit => exact reading_keeps rfl (·.feed.sent) fun _ => rfl
  | read n now => exact reading_keeps rfl (·.feed.sent) fun _ => rfl
  | _ => rfl

/-- Whether word is forwarded after a move: the front begins with it when it opens, unless
somebody else has the reader's end of the channel. -/
theorem forwarding_perform (m : Move) (f : Front) :
    (m.perform f).world.forwarding =
      match m with
      | .start => f.forwarding || !f.desk.store.channel.taken
      | _ => f.forwarding := by
  cases m with
  | start => exact congrArg (·.forwarding) (start_world f)
  | forward =>
    show (forwardOne f).world.forwarding = _
    rw [forwardOne_world]
    split <;> rfl
  | poll n limit => exact reading_keeps rfl (·.forwarding) fun _ => rfl
  | read n now => exact reading_keeps rfl (·.forwarding) fun _ => rfl
  | _ => rfl

/-- The channel after a move. -/
theorem channel_perform (m : Move) (f : Front) :
    (m.perform f).world.desk.store.channel =
      match m with
      | .start => f.desk.store.channel.take.2
      | .create p => f.desk.store.channel.offer (f.stamp p)
      | .forward => if f.forwarding then f.desk.store.channel.receive.2 else f.desk.store.channel
      | _ => f.desk.store.channel := by
  cases m with
  | start => exact congrArg (·.desk.store.channel) (start_world f)
  | create p => exact congrArg Proposal.Store.channel (Proposal.Store.create_world _ _ _ _)
  | decide id d => exact Proposal.Store.Operation.channel_perform (.decide id d _) f.desk.store
  | resubmit id params =>
    exact Proposal.Store.Operation.channel_perform (.resubmit id params _) f.desk.store
  | delete id => exact Proposal.Store.Operation.channel_perform (.delete id) f.desk.store
  | forward =>
    show (forwardOne f).world.desk.store.channel = _
    rw [forwardOne_world]
    split <;> rfl
  | subscribe now => rfl
  | poll n limit => exact reading_keeps rfl (·.desk.store.channel) fun _ => rfl
  | read n now => rfl

end Front

end TriageDesk.Web
