/-
TriageDesk.Proofs.Web.Delivery — which clients get which proposals.

A new proposal passes two buffers on its way to the clients. The channel of the
desk holds ten and passes over what comes while it is full; the feed holds the
latest sixty-four and leaves behind whoever is slower. `DeliveryLaws` says what a
record of the front shows of both, for all clients and in terms of the record
alone. `record_deliveryLaws` is the theorem: every interleaving of creations,
steps of the forwarding, and clients that come and read keeps these laws, and no
client sees whether the others read.

The laws say what happens, not only what does not: each step of the forwarding
sends the oldest proposal that waits (`DeliveryLaws.sends`), so ten of them bring
any proposal out of the channel, and a client that reads on after them is given it
(`ClientLaws.delivered`).

Two invariants carry the proof. `Queues`: what was announced is what was sent
followed by what waits in the channel. `Follows`: up to its place, a client was
given every event sent since it came, except those that it was overtaken by.
A proposal's place among the announced ones is its number in the feed, which ties
the two together.
-/
import Mathlib.Data.List.Forall2
import TriageDesk.Proofs.Web.Course

namespace TriageDesk.Web.Front

/-- What there is to say of a move at the front. -/
abbrev Entry := Trace.Entry Front Move Answer

/-- The entry of a move at the front. -/
abbrev entry (m : Move) (f : Front) : Entry := Trace.entry Move.perform m f

/-- The record of moves at the front. -/
abbrev record (f : Front) (moves : List Move) : List Entry := Trace.record Move.perform f moves

/-- The front after moves. -/
abbrev final (f : Front) (moves : List Move) : Front := Trace.final Move.perform f moves

/-- The front of a fresh desk, before it opens. -/
def fresh (supply : Supply) : Front := ⟨.fresh supply, .empty, false⟩

/-! ## What a record says -/

/-- The proposal as it was created, if one was: what is found under the id that was answered. -/
def Entry.created? (e : Entry) : Option Proposal :=
  match e.answer with
  | .stored id => e.after.desk.store.get? id
  | _ => none

/-- Whether the channel of new proposals was full. -/
def Entry.full (e : Entry) : Bool :=
  10 ≤ e.before.desk.store.channel.waiting.length

/-- The proposal of which word was passed on. -/
def Entry.announced? (e : Entry) : Option Proposal := if e.full then none else e.created?

/-- The proposals of which word was passed on, in the order of their creation. -/
def announced (log : List Entry) : List Proposal := log.filterMap Entry.announced?

/-- Whether a move is a step of the forwarding, and word is forwarded. -/
def Entry.forwards (e : Entry) : Bool :=
  match e.move with
  | .forward => e.before.forwarding
  | _ => false

/-- How many steps the forwarding took. -/
def steps (log : List Entry) : Nat := log.countP Entry.forwards

/-- The events that a client was given by a move. -/
def Entry.got (n : Nat) (e : Entry) : List String :=
  match e.answer with
  | .frames frames => if e.move.reader? = some n then frames.filterMap Feed.Frame.data? else []
  | _ => []

/-- The numbers of these events in the feed: the next ones from the place of the client on. -/
def Entry.numbers (n : Nat) (e : Entry) : List Nat :=
  match e.before.feed.readers[n]? with
  | some r => List.range' (e.before.feed.position r) (e.got n).length
  | none => []

/-- The events that a client was given. -/
def received (n : Nat) (log : List Entry) : List String := log.flatMap (Entry.got n)

/-- The numbers of the events that a client was given. -/
def numbers (n : Nat) (log : List Entry) : List Nat := log.flatMap (Entry.numbers n)

/-- Before a client read the event of a number, so many later ones had been sent that it was
out of reach. -/
def Overtaken (n : Nat) (log : List Entry) (k : Nat) : Prop :=
  ∃ e ∈ log, e.move.reader? = some n ∧ (∃ r, e.before.feed.readers[n]? = some r ∧ r.cursor ≤ k) ∧
    k + 64 < e.before.feed.sent.length

/-- A client has not come to the event of a number yet. -/
def Unread (n : Nat) (f : Front) (k : Nat) : Prop :=
  ∃ r, f.feed.readers[n]? = some r ∧ r.cursor ≤ k

/-! ## The laws -/

/-- What a record shows of a client, from the entry by which it came on. -/
structure ClientLaws (log post : List Entry) (came : Entry) (f : Front) (n : Nat) : Prop where
  /-- It is given events that were sent after it came, in the order of their numbers and none
  twice, each as it was sent. -/
  in_order : (numbers n post).Pairwise (· < ·) ∧
    (∀ k ∈ numbers n post, came.before.feed.sent.length ≤ k) ∧
    List.Forall₂ (fun k data => f.feed.sent[k]? = some data) (numbers n post) (received n post)
  subsequence : (received n post).Sublist (f.feed.sent.drop came.before.feed.sent.length)
  /-- A proposal that is created after it came is passed over because the channel was full, or
  it has a number: it waits in the channel, which the forwarding has not had the time to empty
  since, or was sent under this number as it was created, and then the client was given it, has
  not come to it yet, or was overtaken. -/
  accounted : ∀ mid e rest p, post = mid ++ e :: rest → e.created? = some p →
    e.full = true ∨ ∃ k, came.before.feed.sent.length ≤ k ∧ (announced log)[k]? = some p ∧
      (f.feed.sent.length ≤ k ∧ steps rest < 10 ∨
        f.feed.sent[k]? = some p.toJson.compact ∧
          (k ∈ numbers n post ∨ Unread n f k ∨ Overtaken n post k))
  /-- As long as there is anything it has not come to, reading gives it something, and reading
  all that is within reach takes it to the end. -/
  goes_on : ∀ e ∈ post, e.move.reader? = some n → ∀ r, e.before.feed.readers[n]? = some r →
    (r.cursor < e.before.feed.sent.length → 0 < e.move.limit e.before.feed → e.got n ≠ []) ∧
    (min 64 e.before.feed.sent.length ≤ e.move.limit e.before.feed →
      ∀ k < e.after.feed.sent.length, ¬ Unread n e.after k)
  /-- So it is given every proposal for which the channel had room, once the forwarding had the
  time to empty the channel and it reads on after that, unless it was overtaken. -/
  delivered : ∀ mid e rest p between reading later, post = mid ++ e :: rest →
    rest = between ++ reading :: later → e.created? = some p → e.full = false →
    10 ≤ steps between → reading.move.reader? = some n →
    min 64 reading.before.feed.sent.length ≤ reading.move.limit reading.before.feed →
    p.toJson.compact ∈ received n post ∨
      ∃ k, (announced log)[k]? = some p ∧ Overtaken n post k

/-- What a record of the front shows. -/
structure DeliveryLaws (log : List Entry) (f : Front) : Prop where
  /-- A creation stores a proposal. -/
  creation_stores : ∀ e ∈ log, ∀ p, e.move = .create p →
    ∃ name now, e.created? = some (p.stamped name now)
  /-- Word is forwarded from the opening of the front on. -/
  opens : ∀ pre e post, log = pre ++ e :: post →
    (e.before.forwarding = true ↔ ∃ d ∈ pre, d.move = .start)
  /-- A step of the forwarding sends the oldest proposal that was announced and not yet sent, as
  it was created; nothing else sends anything. -/
  sends : ∀ pre e post, log = pre ++ e :: post →
    e.after.feed.sent = e.before.feed.sent ++
      if e.forwards then
        ((announced pre)[e.before.feed.sent.length]?.map (·.toJson.compact)).toList
      else []
  /-- What was sent is the proposals that were announced, in this order, each as it was created;
  the others wait in the channel. -/
  forwarded : ∃ sent, announced log = sent ++ f.desk.store.channel.waiting ∧
    f.feed.sent = sent.map (·.toJson.compact)
  /-- Whoever comes is a client from then on. -/
  client : ∀ pre came post now, log = pre ++ came :: post → came.move = .subscribe now →
    ClientLaws log post came f came.before.feed.readers.length

/-! ## The channel -/

/-- What was announced was sent, or waits; and nobody but the front takes the reader's end of
the channel. -/
structure Queues (log : List Entry) (f : Front) : Prop where
  capacity : f.desk.store.channel.capacity = 10
  opened : f.desk.store.channel.closed = false
  taken : f.desk.store.channel.taken = f.forwarding
  begun : f.forwarding = true ↔ ∃ e ∈ log, e.move = .start
  forwarded : ∃ sent, announced log = sent ++ f.desk.store.channel.waiting ∧
    f.feed.sent = sent.map (·.toJson.compact)

theorem announced_append (log log' : List Entry) :
    announced (log ++ log') = announced log ++ announced log' := List.filterMap_append

theorem created_create (p : Proposal) (f : Front) :
    (entry (.create p) f).created? = some (f.stamp p) := by
  have answer : (entry (.create p) f).answer = .stored (f.stamp p).id :=
    congrArg Answer.stored (Proposal.Store.create_result _ _ _ _)
  have world := Proposal.Store.create_world p (f.desk.supply.name f.desk.supply.namesDrawn)
    (f.desk.supply.instant f.desk.supply.instantsDrawn) f.desk.store
  rw [Entry.created?, answer]
  refine (congrArg (·.get? (f.stamp p).id) world).trans ?_
  show (f.desk.store.proposals.insert (f.stamp p).id (f.stamp p)).get? _ = _
  rw [Table.get?_insert, if_pos rfl]

theorem announced_other {m : Move} (other : ∀ p, m ≠ .create p) (f : Front) :
    (entry m f).announced? = none := by
  have none : (entry m f).created? = none := by
    cases m with
    | create p => exact absurd rfl (other p)
    | _ => rfl
  rw [Entry.announced?, none, ite_self]

theorem sent_grows (m : Move) (f : Front) : f.feed.sent <+: (m.perform f).world.feed.sent := by
  rw [sent_perform]
  cases m with
  | forward =>
    simp only
    split
    · exact List.prefix_append _ _
    · exact List.prefix_rfl
  | _ => exact List.prefix_rfl

theorem queues_fresh (supply : Supply) : Queues [] (fresh supply) :=
  ⟨rfl, rfl, rfl, by simp [fresh], [], rfl, rfl⟩

namespace Queues

variable {log : List Entry} {f : Front}

/-- Forwarding has begun after a move when the move opens the front, or it had before. -/
theorem begins (h : Queues log f) (m : Move) :
    (m.perform f).world.forwarding = true ↔ ∃ e ∈ log ++ [entry m f], e.move = .start := by
  have earlier : (∃ e ∈ log ++ [entry m f], e.move = .start) ↔
      f.forwarding = true ∨ m = .start := by
    rw [h.begun]
    simp only [List.mem_append, List.mem_singleton, or_and_right, exists_or, exists_eq_left]
    rfl
  have forwarding := forwarding_perform m f
  rw [earlier, forwarding]
  cases m with
  | start => simp [h.taken]
  | _ => simp

/-- A move that announces and sends nothing, and leaves the channel to the one who forwards. -/
theorem quiet (h : Queues log f) {m : Move} {taken : Bool}
    (none : (entry m f).announced? = none)
    (channel : (m.perform f).world.desk.store.channel = { f.desk.store.channel with taken })
    (owned : taken = (m.perform f).world.forwarding)
    (sent : (m.perform f).world.feed.sent = f.feed.sent) :
    Queues (log ++ [entry m f]) (m.perform f).world := by
  have begun := h.begins m
  obtain ⟨capacity, opened, _, _, forwarded⟩ := h
  refine ⟨channel ▸ capacity, channel ▸ opened, channel ▸ owned, begun, ?_⟩
  rw [announced_append, channel, sent]
  simpa [announced, none] using forwarded

/-- What comes while there is room waits last, and what comes while there is none is passed
over. -/
theorem create (h : Queues log f) (p : Proposal) :
    Queues (log ++ [entry (.create p) f]) ((Move.create p).perform f).world := by
  have created := created_create p f
  have channel : _ = f.desk.store.channel.offer (f.stamp p) := channel_perform (.create p) f
  have feed : _ = f.feed.sent := sent_perform (.create p) f
  have forwarding : _ = f.forwarding := forwarding_perform (.create p) f
  have begun := h.begins (.create p)
  by_cases full : 10 ≤ f.desk.store.channel.waiting.length
  · have none : (entry (.create p) f).announced? = none :=
      if_pos (decide_eq_true full)
    have refused : f.desk.store.channel.offer (f.stamp p) = f.desk.store.channel := by
      simp [Proposal.Channel.offer, Proposal.Channel.refusal?, h.opened, h.capacity, full]
    exact h.quiet none (channel.trans refused) (h.taken.trans forwarding.symm) feed
  · have room : (entry (.create p) f).full = false := decide_eq_false full
    have some : (entry (.create p) f).announced? = some (f.stamp p) := by
      rw [Entry.announced?, room]
      exact created
    have accepted : f.desk.store.channel.offer (f.stamp p) =
        { f.desk.store.channel with waiting := f.desk.store.channel.waiting ++ [f.stamp p] } := by
      simp [Proposal.Channel.offer, Proposal.Channel.refusal?, h.opened, h.capacity, full]
    obtain ⟨capacity, opened, taken, _, sent, announced_eq, sent_eq⟩ := h
    rw [accepted] at channel
    refine ⟨channel ▸ capacity, channel ▸ opened, channel ▸ taken.trans forwarding.symm, begun,
      sent, ?_, feed.trans sent_eq⟩
    rw [announced_append, announced_eq, channel]
    simp [announced, some]

/-- What waits first is sent last. -/
theorem forward (h : Queues log f) :
    Queues (log ++ [entry .forward f]) (Move.forward.perform f).world := by
  have none := announced_other (m := .forward) (by simp) f
  have channel := channel_perform .forward f
  have feed := sent_perform .forward f
  have forwarding : _ = f.forwarding := forwarding_perform .forward f
  have begun := h.begins .forward
  have owned := h.taken.trans forwarding.symm
  cases forwards : f.forwarding with
  | false =>
    simp only [forwards, Bool.false_eq_true, if_false] at channel feed
    exact h.quiet none channel owned feed
  | true =>
    simp only [forwards, if_true] at channel feed
    obtain ⟨capacity, opened, _, _, sent, announced_eq, sent_eq⟩ := h
    cases waiting : f.desk.store.channel.waiting with
    | nil =>
      have same : sent.map (·.toJson.compact) = (Move.forward.perform f).world.feed.sent := by
        rw [feed, waiting, sent_eq]
        simp
      simp only [Proposal.Channel.receive, waiting] at channel
      refine ⟨channel ▸ capacity, channel ▸ opened, channel ▸ owned, begun, sent, ?_, same.symm⟩
      rw [announced_append, announced_eq, channel]
      simp [announced, none]
    | cons p rest =>
      simp only [Proposal.Channel.receive, waiting] at channel feed
      refine ⟨channel ▸ capacity, channel ▸ opened, channel ▸ owned, begun, sent ++ [p], ?_, ?_⟩
      · rw [announced_append, announced_eq, channel, waiting]
        simp [announced, none]
      · rw [feed, sent_eq]
        simp

theorem step (h : Queues log f) (m : Move) :
    Queues (log ++ [entry m f]) (m.perform f).world := by
  have channel := channel_perform m f
  have feed := sent_perform m f
  have forwarding := forwarding_perform m f
  cases m with
  | create p => exact h.create p
  | forward => exact h.forward
  | start =>
    refine h.quiet (announced_other (by simp) f) channel (Eq.symm ?_) feed
    rw [forwarding, h.taken]
    exact Bool.or_not_self _
  | _ => exact h.quiet (announced_other (by simp) f) channel (h.taken.trans forwarding.symm) feed

/-- What waits first is the proposal that was announced and not yet sent. -/
theorem head?_waiting (h : Queues log f) :
    f.desk.store.channel.waiting.head? = (announced log)[f.feed.sent.length]? := by
  obtain ⟨sent, announced_eq, sent_eq⟩ := h.forwarded
  rw [announced_eq, sent_eq, List.length_map, List.getElem?_append_right (Nat.le_refl _),
    Nat.sub_self, List.head?_eq_getElem?]

theorem length_announced (h : Queues log f) :
    (announced log).length = f.feed.sent.length + f.desk.store.channel.waiting.length := by
  obtain ⟨sent, announced_eq, sent_eq⟩ := h.forwarded
  rw [announced_eq, sent_eq, List.length_append, List.length_map]

/-- A step of the forwarding sends the oldest proposal that waits. -/
theorem sends (h : Queues log f) (m : Move) :
    (m.perform f).world.feed.sent = f.feed.sent ++
      if (entry m f).forwards then
        ((announced log)[f.feed.sent.length]?.map (·.toJson.compact)).toList
      else [] := by
  rw [sent_perform, ← h.head?_waiting]
  cases m with
  | forward =>
    show (if f.forwarding then _ else _) = f.feed.sent ++ if f.forwarding then _ else []
    cases f.forwarding with
    | true => rfl
    | false => exact (List.append_nil _).symm
  | _ => exact (List.append_nil _).symm

/-- As many steps as proposals wait bring all of them out of the channel. -/
theorem drained (h : Queues log f) (moves : List Move) :
    min (announced log).length (f.feed.sent.length + steps (record f moves)) ≤
      (final f moves).feed.sent.length := by
  induction moves generalizing log f with
  | nil => exact Nat.min_le_right _ _
  | cons m moves ih =>
    have rest := ih (h.step m)
    have sent := congrArg List.length (h.sends m)
    have more : (announced log).length ≤ (announced (log ++ [entry m f])).length := by
      rw [announced_append, List.length_append]
      omega
    have count : steps (record f (m :: moves)) =
        steps (record (m.perform f).world moves) + if (entry m f).forwards then 1 else 0 :=
      List.countP_cons
    show _ ≤ (final (m.perform f).world moves).feed.sent.length
    rw [count]
    rw [List.length_append] at sent
    -- the step sends one unless nothing waits
    by_cases waits : f.feed.sent.length < (announced log).length
    · rw [List.getElem?_eq_getElem waits] at sent
      cases forwards : (entry m f).forwards with
      | true =>
        simp only [forwards, if_true, Option.map_some, Option.toList_some,
          List.length_singleton] at sent ⊢
        omega
      | false =>
        simp only [forwards, Bool.false_eq_true, if_false, List.length_nil] at sent ⊢
        omega
    · omega

/-- A proposal that was announced in the course of a run has its place among the announced ones
as its number: it was sent under it, or waits, and then the forwarding took too few steps
since. -/
theorem numbered (h : Queues log f) {moves : List Move} {mid rest : List Entry} {e : Entry}
    {p : Proposal} (cut : record f moves = mid ++ e :: rest) (told : e.announced? = some p) :
    (announced (log ++ record f moves))[(announced (log ++ mid)).length]? = some p ∧
      ((final f moves).feed.sent.length ≤ (announced (log ++ mid)).length ∧
          steps rest < 10 ∨
        (final f moves).feed.sent[(announced (log ++ mid)).length]? = some p.toJson.compact) := by
  obtain ⟨first, m, last, rfl, rfl, rfl, rfl⟩ := Trace.exists_of_record_eq cut
  have before : Queues (log ++ record f first) (final f first) :=
    Trace.keeps_record (fun _ _ m h => h.step m) h first
  have after := before.step m
  have whole : Queues (log ++ record f (first ++ m :: last)) (final f (first ++ m :: last)) :=
    Trace.keeps_record (fun _ _ m h => h.step m) h _
  have place : (announced (log ++ record f (first ++ m :: last)))[
      (announced (log ++ record f first)).length]? = some p := by
    rw [cut, ← List.append_assoc, announced_append, List.getElem?_append_right (Nat.le_refl _),
      Nat.sub_self]
    simp [announced, told]
  refine ⟨place, ?_⟩
  by_cases waits : (final f (first ++ m :: last)).feed.sent.length ≤
      (announced (log ++ record f first)).length
  · -- at most ten waited after the creation, so fewer steps than that were taken
    have room : (final f first).desk.store.channel.waiting.length < 10 := by
      by_contra full
      have passed : (entry m (final f first)).full = true :=
        decide_eq_true (Nat.le_of_not_lt full)
      rw [Entry.announced?, if_pos passed] at told
      cases told
    have one : (announced (log ++ record f first ++ [entry m (final f first)])).length =
        (announced (log ++ record f first)).length + 1 := by
      rw [announced_append, List.length_append]
      simp [announced, told]
    have drained := after.drained last
    have length := before.length_announced
    have grown := (sent_grows m (final f first)).length_le
    have ended : final (m.perform (final f first)).world last = final f (first ++ m :: last) :=
      (Trace.final_append f first (m :: last)).symm
    rw [ended, one] at drained
    refine .inl ⟨waits, ?_⟩
    show steps (record (m.perform (final f first)).world last) < _
    omega
  · obtain ⟨sent, announced_eq, sent_eq⟩ := whole.forwarded
    rw [sent_eq, List.length_map] at waits
    rw [announced_eq, List.getElem?_append_left (by omega)] at place
    rw [sent_eq, List.getElem?_map, place]
    exact .inr rfl

end Queues

/-! ## What a client is given -/

theorem getElem?_of_prefix {α : Type} {as bs : List α} (begins : as <+: bs) {k : Nat} {a : α}
    (at_ : as[k]? = some a) : bs[k]? = some a := by
  obtain ⟨within, rfl⟩ := List.getElem?_eq_some_iff.mp at_
  exact List.prefix_iff_getElem?.mp begins k within

section

variable {m : Move} {f : Front} {n : Nat} {r : Feed.Reader}

theorem got_reading (reads : m.reader? = some n) (present : f.feed.readers[n]? = some r) :
    (entry m f).got n = (f.feed.sent.drop (f.feed.position r)).take (m.limit f.feed) := by
  obtain ⟨frames, _, answer, _, data, _⟩ := reading_spec reads present
  have given : (entry m f).answer = .frames frames := answer
  have reader : (entry m f).move.reader? = some n := reads
  rw [Entry.got, given, ← data]
  exact if_pos reader

theorem got_absent (reads : m.reader? = some n) (absent : f.feed.readers[n]? = none) :
    (entry m f).got n = [] := by
  have given : (entry m f).answer = .frames [] := (reading_absent reads absent).1
  rw [Entry.got, given]
  exact ite_self _

theorem got_other (other : m.reader? ≠ some n) (f : Front) : (entry m f).got n = [] := by
  have reader : (entry m f).move.reader? ≠ some n := other
  unfold Entry.got
  split
  · exact if_neg reader
  · rfl

/-- A client that does not read keeps its place. -/
theorem present_other (other : m.reader? ≠ some n) (present : f.feed.readers[n]? = some r) :
    (m.perform f).world.feed.readers[n]? = some r := by
  cases reads : m.reader? with
  | some i =>
    have apart : i ≠ n := fun same => other (same ▸ reads)
    cases there : f.feed.readers[i]? with
    | none => rw [(reading_absent reads there).2, present]
    | some r' =>
      obtain ⟨_, _, _, world, _⟩ := reading_spec reads there
      rw [world]
      exact (List.getElem?_set_ne apart).trans present
  | none =>
    rw [readers_perform reads]
    unfold Move.join
    split
    · exact getElem?_of_prefix (List.prefix_append _ _) present
    · exact present

end

/-- The events from a place on have the numbers from this place on. -/
theorem forall₂_window (sent : List String) (place limit : Nat) :
    List.Forall₂ (fun k data => sent[k]? = some data)
      (List.range' place ((sent.drop place).take limit).length) ((sent.drop place).take limit) := by
  rw [List.forall₂_iff_get]
  refine ⟨List.length_range', fun i _ within => ?_⟩
  simp only [List.length_take, List.length_drop] at within
  simp only [List.get_eq_getElem, List.getElem_range', List.getElem_take, List.getElem_drop,
    Nat.one_mul]
  exact List.getElem?_eq_getElem (by omega)

theorem exists_of_forall₂ {α β : Type} {R : α → β → Prop} {as : List α} {bs : List β} {a : α}
    (each : List.Forall₂ R as bs) (among : a ∈ as) : ∃ b ∈ bs, R a b := by
  induction each with
  | nil => cases among
  | cons here _ ih =>
    rcases List.mem_cons.mp among with rfl | among
    · exact ⟨_, List.mem_cons_self, here⟩
    · obtain ⟨b, later, there⟩ := ih among
      exact ⟨b, List.mem_cons_of_mem _ later, there⟩

/-- Events with ascending numbers are a subsequence of all from the first number on. -/
theorem sublist_of_numbers {sent : List String} {ks : List Nat} {events : List String} {start : Nat}
    (ascending : ks.Pairwise (· < ·)) (from_ : ∀ k ∈ ks, start ≤ k)
    (as_sent : List.Forall₂ (fun k data => sent[k]? = some data) ks events) :
    events.Sublist (sent.drop start) := by
  induction as_sent generalizing start with
  | nil => exact List.nil_sublist _
  | @cons k event ks events here _ ih =>
    rw [List.pairwise_cons] at ascending
    obtain ⟨within, rfl⟩ := List.getElem?_eq_some_iff.mp here
    have rest := ih ascending.2 ascending.1
    have later : (sent.drop k).Sublist (sent.drop start) :=
      List.drop_sublist_drop_left sent (from_ k List.mem_cons_self)
    rw [List.drop_eq_getElem_cons within] at later
    exact (rest.cons_cons _).trans later

/-- Up to its place a client was given every event since it came, except those that it was
overtaken by. -/
structure Follows (n start : Nat) (log : List Entry) (f : Front) (r : Feed.Reader) : Prop where
  present : f.feed.readers[n]? = some r
  came : start ≤ r.cursor
  reached : r.cursor ≤ f.feed.sent.length
  ascending : (numbers n log).Pairwise (· < ·)
  within : ∀ k ∈ numbers n log, start ≤ k ∧ k < r.cursor
  covered : ∀ k, start ≤ k → k < r.cursor → k ∈ numbers n log ∨ Overtaken n log k
  as_sent : List.Forall₂ (fun k data => f.feed.sent[k]? = some data) (numbers n log)
    (received n log)

namespace Follows

variable {n start : Nat} {log : List Entry} {f : Front} {r : Feed.Reader}

theorem overtaken_append {k : Nat} {log' : List Entry} (h : Overtaken n log k) :
    Overtaken n (log ++ log') k := by
  obtain ⟨e, among, rest⟩ := h
  exact ⟨e, List.mem_append_left _ among, rest⟩

/-- A move that does not read for the client. -/
theorem other (h : Follows n start log f r) {m : Move} (reader : m.reader? ≠ some n) :
    Follows n start (log ++ [entry m f]) (m.perform f).world r := by
  have got := got_other reader f
  have more := sent_grows m f
  have nothing : (entry m f).numbers n = [] := by
    unfold Entry.numbers
    rw [got]
    split <;> rfl
  have numbers_eq : numbers n (log ++ [entry m f]) = numbers n log := by
    simp [numbers, nothing]
  have received_eq : received n (log ++ [entry m f]) = received n log := by
    simp [received, got]
  refine ⟨present_other reader h.present, h.came, Nat.le_trans h.reached more.length_le, ?_, ?_, ?_,
    ?_⟩
  · exact numbers_eq ▸ h.ascending
  · exact numbers_eq ▸ h.within
  · intro k since before
    rw [numbers_eq]
    exact (h.covered k since before).imp_right overtaken_append
  · rw [numbers_eq, received_eq]
    exact h.as_sent.imp fun _ _ sent => getElem?_of_prefix more sent

/-- A move that reads for the client. -/
theorem reads (h : Follows n start log f r) {m : Move} (reader : m.reader? = some n) :
    ∃ r', Follows n start (log ++ [entry m f]) (m.perform f).world r' := by
  obtain ⟨_, r', _, world, _, cursor⟩ := reading_spec reader h.present
  have got := got_reading reader h.present
  have new : (entry m f).numbers n =
      List.range' (f.feed.position r) (f.feed.granted (m.limit f.feed) r) := by
    have there : (entry m f).before.feed.readers[n]? = some r := h.present
    rw [Entry.numbers, there, got]
    simp [Feed.granted, entry, Trace.entry]
  have numbers_eq : numbers n (log ++ [entry m f]) = numbers n log ++
      List.range' (f.feed.position r) (f.feed.granted (m.limit f.feed) r) := by
    simp [numbers, new]
  have received_eq : received n (log ++ [entry m f]) = received n log ++
      (f.feed.sent.drop (f.feed.position r)).take (m.limit f.feed) := by
    simp [received, got]
  have sent_eq : (m.perform f).world.feed.sent = f.feed.sent := by
    rw [world]
    rfl
  have present : (m.perform f).world.feed.readers[n]? = some r' := by
    have within := (List.getElem?_eq_some_iff.mp h.present).1
    rw [world]
    exact List.getElem?_set_self within
  have length : ((f.feed.sent.drop (f.feed.position r)).take (m.limit f.feed)).length =
      f.feed.granted (m.limit f.feed) r := by
    simp [Feed.granted]
  have window := forall₂_window f.feed.sent (f.feed.position r) (m.limit f.feed)
  rw [length] at window
  have granted_le : f.feed.granted (m.limit f.feed) r ≤ f.feed.sent.length - f.feed.position r :=
    Nat.min_le_right _ _
  have position : f.feed.position r = max r.cursor (f.feed.sent.length - 64) := rfl
  have came := h.came
  have reached := h.reached
  rw [Feed.cursorAfter] at cursor
  generalize f.feed.granted (m.limit f.feed) r = granted at *
  generalize f.feed.position r = place at *
  refine ⟨r', present, ?_, ?_, ?_, ?_, ?_, ?_⟩
  · split at cursor <;> omega
  · rw [sent_eq]
    split at cursor <;> omega
  · rw [numbers_eq, List.pairwise_append]
    refine ⟨h.ascending, List.pairwise_lt_range', fun k old k' new => ?_⟩
    have before := (h.within k old).2
    have after := (List.mem_range'_1.mp new).1
    omega
  · intro k among
    rw [numbers_eq, List.mem_append, List.mem_range'_1] at among
    rcases among with old | new
    · have within := h.within k old
      split at cursor <;> omega
    · split at cursor <;> omega
  · intro k since before
    rw [numbers_eq, List.mem_append, List.mem_range'_1]
    by_cases old : k < r.cursor
    · exact (h.covered k since old).imp .inl overtaken_append
    · by_cases behind : place ≤ k
      · refine .inl (.inr ⟨behind, ?_⟩)
        split at cursor <;> omega
      · -- the client's place has moved past the event although it was not given it
        refine .inr ⟨entry m f, List.mem_append_right _ List.mem_cons_self, reader,
          ⟨r, h.present, by omega⟩, ?_⟩
        show k + 64 < f.feed.sent.length
        omega
  · rw [numbers_eq, received_eq, sent_eq]
    exact List.rel_append h.as_sent window

/-- Whatever happens, a client goes on to follow. -/
theorem step (h : ∃ r, Follows n start log f r) (m : Move) :
    ∃ r, Follows n start (log ++ [entry m f]) (m.perform f).world r := by
  obtain ⟨r, h⟩ := h
  by_cases reader : m.reader? = some n
  · exact h.reads reader
  · exact ⟨r, h.other reader⟩

/-- Who comes follows from then on. -/
theorem subscribe (f : Front) (now : Nat) :
    Follows f.feed.readers.length f.feed.sent.length [] ((Move.subscribe now).perform f).world
      ⟨f.feed.sent.length, now⟩ where
  present := List.getElem?_concat_length
  came := Nat.le_refl _
  reached := Nat.le_refl _
  ascending := .nil
  within := by simp [numbers]
  covered k since before := absurd before (Nat.not_lt.mpr since)
  as_sent := .nil

end Follows

/-! ## One client beside others -/

/-- Two fronts that differ in nothing that matters to a client. -/
def Alike (n : Nat) (f g : Front) : Prop :=
  ∃ readers : List Feed.Reader, g = f.withReaders readers ∧
    readers.length = f.feed.readers.length ∧
    readers[n]?.map (·.cursor) = f.feed.readers[n]?.map (·.cursor)

namespace Alike

variable {n : Nat} {f g : Front} {m : Move}

theorem refl (n : Nat) (f : Front) : Alike n f f := ⟨f.feed.readers, rfl, rfl, rfl⟩

/-- What others read makes no difference. -/
theorem skip (h : Alike n f g) (other : m.concerns n = false) :
    Alike n (m.perform f).world g := by
  obtain ⟨readers, rfl, length, place⟩ := h
  cases reads : m.reader? with
  | none => simp [Move.concerns, reads] at other
  | some i =>
    have apart : i ≠ n := by simpa [Move.concerns, reads] using other
    cases present : f.feed.readers[i]? with
    | none =>
      rw [(reading_absent reads present).2]
      exact ⟨readers, rfl, length, place⟩
    | some r =>
      obtain ⟨_, r', _, world, _⟩ := reading_spec reads present
      rw [world]
      refine ⟨readers, rfl, length.trans List.length_set.symm, ?_⟩
      show _ = ((f.feed.readers.set i r')[n]?).map _
      rw [List.getElem?_set_ne apart]
      exact place

/-- What a client reads itself, and what is not reading, is the same at both fronts. -/
theorem step (h : Alike n f g) (concerns : m.concerns n = true) :
    (entry m g).got n = (entry m f).got n ∧ Alike n (m.perform f).world (m.perform g).world := by
  obtain ⟨readers, rfl, length, place⟩ := h
  cases reads : m.reader? with
  | none =>
    have other : m.reader? ≠ some n := by simp [reads]
    refine ⟨(got_other other _).trans (got_other other _).symm, _, idle_perform reads f readers, ?_⟩
    rw [readers_perform reads]
    unfold Move.join
    split
    · refine ⟨by simp [withReaders, length], ?_⟩
      simp only [withReaders, List.getElem?_append, length]
      split
      · exact place
      · rfl
    · exact ⟨length, place⟩
  | some i =>
    obtain rfl : i = n := by simpa [Move.concerns, reads] using concerns
    cases present : f.feed.readers[i]? with
    | none =>
      rw [present, Option.map_none, Option.map_eq_none_iff] at place
      have absent : (f.withReaders readers).feed.readers[i]? = none := place
      rw [got_absent reads present, got_absent reads absent, (reading_absent reads present).2,
        (reading_absent reads absent).2]
      exact ⟨rfl, readers, rfl, length, by rw [place, present]⟩
    | some r =>
      rw [present, Option.map_some, Option.map_eq_some_iff] at place
      obtain ⟨r', present', same⟩ := place
      have there : (f.withReaders readers).feed.readers[i]? = some r' := present'
      have limit : m.limit (f.withReaders readers).feed = m.limit f.feed := by
        cases m <;> rfl
      have position : (f.withReaders readers).feed.position r' = f.feed.position r := by
        simp only [Feed.position, same]
        rfl
      have cursor : (f.withReaders readers).feed.cursorAfter (m.limit f.feed) r' =
          f.feed.cursorAfter (m.limit f.feed) r := by
        simp only [Feed.cursorAfter, Feed.granted, position, same]
        rfl
      refine ⟨?_, ?_⟩
      · rw [got_reading reads present, got_reading reads there, limit, position]
        rfl
      · obtain ⟨_, q, _, world, _, place⟩ := reading_spec reads present
        obtain ⟨_, q', _, world', _, place'⟩ := reading_spec reads there
        have within := (List.getElem?_eq_some_iff.mp present).1
        have within' := (List.getElem?_eq_some_iff.mp present').1
        rw [limit, cursor] at place'
        rw [world, world']
        refine ⟨readers.set i q', rfl, by simp [withReaders, length], ?_⟩
        simp only [withReaders, List.getElem?_set_self within, List.getElem?_set_self within',
          Option.map_some, place, place']

/-- **No client sees whether others read.** -/
theorem received_filter {f g : Front} (h : Alike n f g) (moves : List Move) :
    received n (record g (moves.filter (Move.concerns n))) = received n (record f moves) := by
  induction moves generalizing f g with
  | nil => rfl
  | cons m moves ih =>
    cases concerns : m.concerns n with
    | true =>
      have step := h.step concerns
      rw [List.filter_cons_of_pos concerns]
      show (entry m g).got n ++ received n _ = (entry m f).got n ++ received n _
      rw [step.1, ih step.2]
    | false =>
      have other : m.reader? ≠ some n := fun reads => by
        simp [Move.concerns, reads] at concerns
      have skip := ih (h.skip concerns)
      rw [List.filter_cons_of_neg (by simp [concerns])]
      show received n _ = (entry m f).got n ++ received n _
      rw [got_other other, skip]
      rfl

end Alike

/-! ## Every interleaving -/

theorem queues_record (supply : Supply) (moves : List Move) :
    Queues (record (fresh supply) moves) (final (fresh supply) moves) :=
  Trace.keeps_record (fun _ _ m h => h.step m) (queues_fresh supply) moves

/-- The front after a client came. -/
abbrev joined (f : Front) (now : Nat) : Front := ((Move.subscribe now).perform f).world

theorem follows_record (f : Front) (now : Nat) (moves : List Move) :
    ∃ r, Follows f.feed.readers.length f.feed.sent.length (record (f.joined now) moves)
      (final (f.joined now) moves) r :=
  Trace.keeps_record (P := fun log g => ∃ r, Follows _ _ log g r)
    (fun _ _ m h => Follows.step h m) ⟨_, Follows.subscribe f now⟩ moves

/-- Reading gives a client something as long as anything is left for it, and takes it to the end
if it reads enough. -/
theorem reading_goes_on {m : Move} {f : Front} {n : Nat} {r : Feed.Reader}
    (reads : m.reader? = some n) (present : f.feed.readers[n]? = some r) :
    (r.cursor < f.feed.sent.length → 0 < m.limit f.feed → (entry m f).got n ≠ []) ∧
    (min 64 f.feed.sent.length ≤ m.limit f.feed →
      ∀ k < (m.perform f).world.feed.sent.length, ¬ Unread n (m.perform f).world k) := by
  have position : f.feed.position r = max r.cursor (f.feed.sent.length - 64) := rfl
  constructor
  · intro left some none
    have length := congrArg List.length none
    rw [got_reading reads present] at length
    simp only [List.length_take, List.length_drop, List.length_nil] at length
    omega
  · rintro enough k within ⟨r', there, behind⟩
    obtain ⟨_, q, _, world, _, cursor⟩ := reading_spec reads present
    have inside := (List.getElem?_eq_some_iff.mp present).1
    rw [world] at within there
    have same : q = r' := Option.some.inj ((List.getElem?_set_self inside).symm.trans there)
    have sent : k < f.feed.sent.length := within
    have granted : f.feed.granted (m.limit f.feed) r =
        min (m.limit f.feed) (f.feed.sent.length - f.feed.position r) := rfl
    rw [← same, cursor, Feed.cursorAfter] at behind
    split at behind <;> omega

/-- What became of a proposal that was created while a client was there: it was passed over, it
waits, or it was sent, and then the client was given it, has yet to come to it, or was
overtaken. -/
theorem client_accounted {pre mid rest : List Entry} {f : Front} {e : Entry} {p : Proposal}
    (before : Queues pre f) (now : Nat) (moves : List Move)
    (cut : record (f.joined now) moves = mid ++ e :: rest) (created : e.created? = some p) :
    e.full = true ∨ ∃ k, f.feed.sent.length ≤ k ∧
      (announced (pre ++ record f (.subscribe now :: moves)))[k]? = some p ∧
      ((final (f.joined now) moves).feed.sent.length ≤ k ∧
          steps rest < 10 ∨
        (final (f.joined now) moves).feed.sent[k]? = some p.toJson.compact ∧
          (k ∈ numbers f.feed.readers.length (record (f.joined now) moves) ∨
            Unread f.feed.readers.length (final (f.joined now) moves) k ∨
            Overtaken f.feed.readers.length (record (f.joined now) moves) k)) := by
  cases full : e.full with
  | true => exact .inl rfl
  | false =>
    obtain ⟨r, follows⟩ := follows_record f now moves
    have told : e.announced? = some p := by
      rw [Entry.announced?, full]
      exact created
    have whole : record f (.subscribe now :: moves) =
        (entry (.subscribe now) f :: mid) ++ e :: rest := congrArg _ cut
    obtain ⟨place, sent⟩ := before.numbered whole told
    have since : f.feed.sent.length ≤
        (announced (pre ++ entry (.subscribe now) f :: mid)).length := by
      rw [announced_append, List.length_append, before.length_announced]
      omega
    refine .inr ⟨_, since, place, sent.imp_right fun sent => ⟨sent, ?_⟩⟩
    by_cases behind : r.cursor ≤ (announced (pre ++ entry (.subscribe now) f :: mid)).length
    · exact .inr (.inl ⟨r, follows.present, behind⟩)
    · exact (follows.covered _ since (by omega)).imp_right .inr

/-- A client that reads all that is within reach, when the forwarding had the time to empty the
channel since a proposal was created, was given this proposal by then or was overtaken. -/
theorem client_delivered {pre mid between : List Entry} {f : Front} {e : Entry} {p : Proposal}
    {m : Move} (before : Queues pre f) (now : Nat) (first last : List Move)
    (up_to : record (f.joined now) first = mid ++ e :: between)
    (created : e.created? = some p) (room : e.full = false)
    (enough : 10 ≤ steps between)
    (reads : m.reader? = some f.feed.readers.length)
    (limit : min 64 (final (f.joined now) first).feed.sent.length ≤
      m.limit (final (f.joined now) first).feed) :
    p.toJson.compact ∈ received f.feed.readers.length
        (record (f.joined now) (first ++ m :: last)) ∨
      ∃ k, (announced (pre ++ record f (.subscribe now :: (first ++ m :: last))))[k]? = some p ∧
        Overtaken f.feed.readers.length (record (f.joined now) (first ++ m :: last)) k := by
  -- the run up to the reading, after which nothing that was sent is unread
  have later : record (f.joined now) (first ++ m :: last) =
      record (f.joined now) (first ++ [m]) ++ record (final (f.joined now) (first ++ [m])) last := by
    rw [List.append_cons]
    exact Trace.record_append _ _ _
  have cut : record (f.joined now) (first ++ [m]) =
      mid ++ e :: (between ++ [entry m (final (f.joined now) first)]) := by
    rw [← List.cons_append, ← List.append_assoc, ← up_to]
    exact Trace.record_append _ _ _
  have ended : final (f.joined now) (first ++ [m]) =
      (m.perform (final (f.joined now) first)).world := Trace.final_append _ _ _
  obtain ⟨r, follows⟩ := follows_record f now (first ++ [m])
  rcases client_accounted before now (first ++ [m]) cut created with full |
    ⟨k, _, place, ⟨_, few⟩ | ⟨sent, given | unread | overtaken⟩⟩
  · rw [room] at full
    cases full
  · rw [steps, List.countP_append] at few
    unfold steps at enough
    omega
  · obtain ⟨data, among, same⟩ := exists_of_forall₂ follows.as_sent given
    obtain rfl := Option.some.inj (sent.symm.trans same)
    rw [later, received, List.flatMap_append]
    exact .inl (List.mem_append_left _ among)
  · obtain ⟨q, there⟩ := follows_record f now first
    have within := (List.getElem?_eq_some_iff.mp sent).1
    rw [ended] at unread within
    exact absurd unread ((reading_goes_on reads there.present).2 limit k within)
  · refine .inr ⟨k, ?_, later ▸ Follows.overtaken_append overtaken⟩
    have whole : record f (.subscribe now :: (first ++ m :: last)) =
        record f (.subscribe now :: (first ++ [m])) ++
          record (final (f.joined now) (first ++ [m])) last :=
      congrArg (entry (.subscribe now) f :: ·) later
    rw [whole, ← List.append_assoc, announced_append]
    exact getElem?_of_prefix (List.prefix_append _ _) place

/-- Whoever comes in the course of a run is a client from then on. -/
theorem client_laws {pre : List Entry} {f : Front} (before : Queues pre f) (now : Nat)
    (moves : List Move) :
    ClientLaws (pre ++ record f (.subscribe now :: moves)) (record (f.joined now) moves)
      (entry (.subscribe now) f) (final f (.subscribe now :: moves)) f.feed.readers.length := by
  obtain ⟨r, follows⟩ := follows_record f now moves
  have since : ∀ k ∈ numbers f.feed.readers.length (record (f.joined now) moves),
      f.feed.sent.length ≤ k := fun k among => (follows.within k among).1
  refine ⟨⟨follows.ascending, since, follows.as_sent⟩,
    sublist_of_numbers follows.ascending since follows.as_sent,
    fun mid e rest p cut created => client_accounted before now moves cut created, ?_, ?_⟩
  · intro e among reads r present
    obtain ⟨first, m, rfl⟩ := Trace.exists_of_mem_record among
    exact reading_goes_on reads present
  · intro mid e rest p between reading later cut split created room enough reads limit
    rw [split, ← List.cons_append, ← List.append_assoc] at cut
    obtain ⟨first, m, last, rfl, up_to, rfl, _⟩ := Trace.exists_of_record_eq cut
    exact client_delivered before now first last up_to.symm created room enough reads limit

/-- **Every client gets what was sent since it came, in order, and misses only what the channel
had no room for or what overtook it.** This holds of every interleaving, and what a client gets
does not depend on whether others read. -/
theorem record_deliveryLaws (supply : Supply) (moves : List Move) :
    DeliveryLaws (record (fresh supply) moves) (final (fresh supply) moves) ∧
      ∀ n, received n (record (fresh supply) (moves.filter (Move.concerns n))) =
        received n (record (fresh supply) moves) := by
  have queues := queues_record supply moves
  refine ⟨⟨?_, ?_, ?_, queues.forwarded, ?_⟩, fun n => (Alike.refl n _).received_filter moves⟩
  · intro e among p creates
    obtain ⟨first, m, rfl⟩ := Trace.exists_of_mem_record among
    obtain rfl : m = .create p := creates
    exact ⟨_, _, created_create p _⟩
  · intro pre e post cut
    obtain ⟨first, m, last, rfl, rfl, rfl, rfl⟩ := Trace.exists_of_record_eq cut
    exact (queues_record supply first).begun
  · intro pre e post cut
    obtain ⟨first, m, last, rfl, rfl, rfl, rfl⟩ := Trace.exists_of_record_eq cut
    exact (queues_record supply first).sends m
  · intro pre came post now cut subscribes
    obtain ⟨first, m, last, rfl, rfl, rfl, rfl⟩ := Trace.exists_of_record_eq cut
    obtain rfl : m = .subscribe now := subscribes
    have ended : final (fresh supply) (first ++ .subscribe now :: last) =
        final (final (fresh supply) first) (.subscribe now :: last) := Trace.final_append _ _ _
    rw [cut, ended]
    exact client_laws (queues_record supply first) now last

/-- A clock that stands still, and one name. -/
def calm : Supply where
  instant _ := ⟨1000, 5⟩
  name _ := "a"
  outcome _ _ := .noServer
  instantsDrawn := 0
  namesDrawn := 0

/-- A proposal is created while two clients are there, of whom each reads in its own way. -/
def pushed : List Move :=
  [.start, .subscribe 0, .subscribe 0, .create (.new "risk" "pushed" "summary" ∅ ⟨0, 0⟩), .forward,
    .poll 0 1, .read 1 5]

theorem record_deliveryLaws_pushed :
    (DeliveryLaws (record (fresh calm) pushed) (final (fresh calm) pushed) ∧
      ∀ n, received n (record (fresh calm) (pushed.filter (Move.concerns n))) =
        received n (record (fresh calm) pushed)) ∧
    ∀ n < 2, received n (record (fresh calm) pushed) =
      ["\x7b\"actions\":[],\"createdAt\":\"1970-01-01T00:00:00Z\",\"details\":\x7b\x7d,\"id\":\"a\"," ++
        "\"parameters\":\x7b\x7d,\"status\":\"pending\",\"summary\":\"summary\",\"title\":\"pushed\"," ++
        "\"type\":\"risk\",\"updatedAt\":\"1970-01-01T00:16:40.000000005Z\"\x7d"] :=
  ⟨record_deliveryLaws calm pushed, by decide +kernel⟩

end TriageDesk.Web.Front
