/-
TriageDesk.Proofs.Proposal.Notifications — word of new proposals is neither
doubled nor reordered, and is lost only where the channel is full or its
reader has gone.

`NotificationLaws capacity log` says what a record of operations shows of the
channel, in terms of the record alone: `created`, `notified` and `delivered`
are the proposals that were stored, of which word was passed on, and that the
reader was given; `queued` is what was passed on and not given yet.
`record_notificationLaws` is the theorem: the record of every run from an
empty store keeps these laws, whatever else is done to the store meanwhile.

The invariant is `Agrees`: the channel holds just what the record says is
queued. `Agrees.perform` keeps it through one operation; there the creations
split by whether the channel refuses, and the reads by whether it is empty.
While the reader is there, what was passed on is what was given followed by
what is queued (`Agrees.notified_eq`), which is the conservation law behind the rest.
-/
import Mathlib.Data.List.Basic
import TriageDesk.Proofs.Proposal.Course

namespace TriageDesk.Proposal.Store

open Time

/-! ## What a record says of the channel -/

/-- The proposal as it was stored, if one was: what is found under the id that
was answered. -/
def Entry.created? (e : Entry) : Option Proposal :=
  match e.answer with
  | .stored id => e.after.get? id
  | _ => none

/-- Whether it was reported that word of a new proposal was not passed on. -/
def Entry.skips (e : Entry) : Bool :=
  e.events.any fun
    | .notificationSkippedFull _ => true
    | .notificationSkippedClosed _ => true
    | _ => false

/-- The proposal of which word was passed on. -/
def Entry.notified? (e : Entry) : Option Proposal := if e.skips then none else e.created?

/-- The proposal that the reader was given. -/
def Entry.delivered? (e : Entry) : Option Proposal :=
  match e.answer with
  | .received p => p
  | _ => none

/-- Whether the reader's end was handed out. -/
def Entry.handsOut (e : Entry) : Bool :=
  match e.answer with
  | .taken there => there
  | _ => false

/-- Whether the reader was let go. -/
def Entry.drops (e : Entry) : Bool :=
  match e.move with
  | .closeNotifications => true
  | _ => false

/-- The proposals that were stored, in the order of their creation. -/
def created (log : List Entry) : List Proposal := log.filterMap Entry.created?

/-- Those of which word was passed on. -/
def notified (log : List Entry) : List Proposal := log.filterMap Entry.notified?

/-- Those that the reader was given. -/
def delivered (log : List Entry) : List Proposal := log.filterMap Entry.delivered?

/-- Whether the reader has gone. -/
def dropped (log : List Entry) : Bool := log.any Entry.drops

/-- Those of which word was passed on and that the reader was not given yet;
none once it has gone. -/
def queued (log : List Entry) : List Proposal :=
  if dropped log then [] else (notified log).drop (delivered log).length

/-- What a record says of the channel of a store. -/
structure NotificationLaws (capacity : Nat) (log : List Entry) : Prop where
  /-- A creation stores its proposal with its id and its moments, and answers the id. -/
  creation_stores : ∀ e ∈ log, ∀ p freshId now, e.move = .create p freshId now →
    e.answer = .stored (p.stamped freshId now).id ∧ e.created? = some (p.stamped freshId now)
  /-- The reader is given proposals as they were stored, in the order of their
  creation and each at most once. -/
  delivered_sublist : (delivered log).Sublist (created log)
  /-- Of those of which word was passed on, it is given the first ones. -/
  delivered_begins : delivered log <+: notified log
  /-- A read gives the oldest that is queued, if there is one. -/
  receives_oldest : ∀ pre e post, log = pre ++ e :: post → e.move = .receive →
    e.answer = .received (queued pre).head?
  /-- Word of a creation is skipped exactly if the queue is full at that moment or the
  reader has gone. -/
  skips_iff : ∀ pre e post, log = pre ++ e :: post →
    (∃ p freshId now, e.move = .create p freshId now) →
    (e.skips = true ↔ max capacity 1 ≤ (queued pre).length ∨ dropped pre = true)
  /-- The queue never exceeds the capacity, which is at least one. -/
  bounded : ∀ pre post, log = pre ++ post → (queued pre).length ≤ max capacity 1
  /-- The reader's end is handed out at most once. -/
  handed_out_once : (log.filter (·.handsOut)).length ≤ 1
  /-- A reader that is there and lets no creation find the queue full misses nothing: the
  proposals that were stored are those it was given, and then those that are queued. -/
  complete : dropped log = false →
    (∀ pre e post, log = pre ++ e :: post →
      (∃ p freshId now, e.move = .create p freshId now) →
      (queued pre).length < max capacity 1) →
    created log = delivered log ++ queued log
  /-- It was given every one of them as soon as a read finds nothing more. -/
  all_received : dropped log = false →
    (∀ pre e post, log = pre ++ e :: post →
      (∃ p freshId now, e.move = .create p freshId now) →
      (queued pre).length < max capacity 1) →
    ∀ pre e, log = pre ++ [e] → e.move = .receive → e.answer = .received none →
    delivered log = created log

/-! ## One operation -/

theorem answer_create (p : Proposal) (freshId : String) (now : Instant) (s : Store) :
    ((Operation.create p freshId now).entry s).answer = .stored (p.stamped freshId now).id := by
  simp only [Operation.entry, Trace.entry, Operation.perform, Act.bind_apply, Act.pure_apply, create_result]

theorem created_create (p : Proposal) (freshId : String) (now : Instant) (s : Store) :
    ((Operation.create p freshId now).entry s).created? = some (p.stamped freshId now) := by
  unfold Entry.created?
  rw [answer_create]
  show (Operation.perform (.create p freshId now) s).world.get? _ = _
  rw [Operation.get?_perform]
  exact if_pos rfl

/-- Word of a creation is skipped if the channel refuses it. -/
theorem skips_create (p : Proposal) (freshId : String) (now : Instant) (s : Store) :
    ((Operation.create p freshId now).entry s).skips = s.channel.refusal?.isSome := by
  simp only [Entry.skips, Operation.entry, Trace.entry, Operation.perform, create, Act.bind_apply,
    Act.look_apply, Act.change_apply, Act.pure_apply]
  cases s.get? (p.stamped freshId now).id <;> cases h : s.channel.refusal? with
  | none => rfl
  | some refusal => cases refusal <;> rfl

theorem refusal_isSome_iff (c : Channel) :
    c.refusal?.isSome = true ↔ c.capacity ≤ c.waiting.length ∨ c.closed = true := by
  unfold Channel.refusal?
  cases hc : c.closed with
  | true => simp
  | false => by_cases hl : c.capacity ≤ c.waiting.length <;> simp [hl]

theorem notified_of_created_none {e : Entry} (h : e.created? = none) : e.notified? = none := by
  unfold Entry.notified?
  rw [h]
  exact ite_self none

theorem answer_receive (s : Store) :
    (Operation.receive.entry s).answer = .received s.channel.waiting.head? := by
  simp only [Operation.entry, Trace.entry, Operation.perform, receive, Act.bind_apply, Act.look_apply,
    Act.change_apply, Act.pure_apply, Channel.receive]
  cases s.channel.waiting <;> rfl

theorem answer_takeNotifications (s : Store) :
    (Operation.takeNotifications.entry s).answer = .taken (!s.channel.taken) := rfl

/-! ## One more entry -/

theorem notified_concat (log : List Entry) (e : Entry) :
    notified (log ++ [e]) = notified log ++ e.notified?.toList := by
  unfold notified
  rw [List.filterMap_append]
  cases h : e.notified? <;> simp [h]

theorem delivered_concat (log : List Entry) (e : Entry) :
    delivered (log ++ [e]) = delivered log ++ e.delivered?.toList := by
  unfold delivered
  rw [List.filterMap_append]
  cases h : e.delivered? <;> simp [h]

theorem dropped_concat (log : List Entry) (e : Entry) :
    dropped (log ++ [e]) = (dropped log || e.drops) := by
  simp [dropped]

theorem handed_concat (log : List Entry) (e : Entry) :
    ((log ++ [e]).filter (·.handsOut)).length =
      (log.filter (·.handsOut)).length + if e.handsOut then 1 else 0 := by
  rw [List.filter_append, List.length_append]
  cases h : e.handsOut <;> simp [h]

/-- The channel holds what a record says is queued, and knows what the record
says of its reader. -/
structure Agrees (capacity : Nat) (log : List Entry) (c : Channel) : Prop where
  capacity_eq : c.capacity = max capacity 1
  closed_eq : c.closed = dropped log
  waiting_eq : c.waiting = queued log
  bounded : c.waiting.length ≤ max capacity 1
  delivered_begins : delivered log <+: notified log
  handed_out : (log.filter (·.handsOut)).length = if c.taken then 1 else 0

theorem agrees_ofCapacity (capacity : Nat) :
    Agrees capacity [] (ofCapacity capacity).channel where
  capacity_eq := rfl
  closed_eq := rfl
  waiting_eq := rfl
  bounded := Nat.zero_le _
  delivered_begins := List.nil_prefix
  handed_out := rfl

namespace Agrees

variable {capacity : Nat} {log : List Entry} {s : Store}

/-- While the reader is there, what was passed on is what it was given followed
by what waits. -/
theorem notified_eq {c : Channel} (h : Agrees capacity log c) (hd : dropped log = false) :
    notified log = delivered log ++ c.waiting := by
  obtain ⟨rest, hrest⟩ := h.delivered_begins
  have hw : c.waiting = rest := by
    rw [h.waiting_eq, queued, hd, ← hrest]
    simp
  rw [hw, hrest]

/-- An operation that passes no word on, gives the reader nothing, and neither
hands it out nor lets it go. -/
theorem quiet {e : Entry} {c : Channel} (h : Agrees capacity log c) (hn : e.notified? = none)
    (hr : e.delivered? = none) (ht : e.handsOut = false) (hd : e.drops = false) :
    Agrees capacity (log ++ [e]) c where
  capacity_eq := h.capacity_eq
  closed_eq := by
    rw [dropped_concat, hd, Bool.or_false]
    exact h.closed_eq
  waiting_eq := by
    simpa [queued, dropped_concat, notified_concat, delivered_concat, hn, hr, hd]
      using h.waiting_eq
  bounded := h.bounded
  delivered_begins := by
    simpa [notified_concat, delivered_concat, hn, hr] using h.delivered_begins
  handed_out := by
    simpa [handed_concat, ht] using h.handed_out

/-- A creation: what the channel takes in is queued last, and what it refuses
leaves everything as it was. -/
theorem create (h : Agrees capacity log s.channel) (p : Proposal) (freshId : String)
    (now : Instant) :
    Agrees capacity (log ++ [(Operation.create p freshId now).entry s])
      (s.channel.offer (p.stamped freshId now)) := by
  have hskips := skips_create p freshId now s
  have hcreated := created_create p freshId now s
  have hr : ((Operation.create p freshId now).entry s).delivered? = none := by
    unfold Entry.delivered?
    rw [answer_create]
  have ht : ((Operation.create p freshId now).entry s).handsOut = false := by
    unfold Entry.handsOut
    rw [answer_create]
  have hd : ((Operation.create p freshId now).entry s).drops = false := rfl
  generalize (Operation.create p freshId now).entry s = e at *
  cases href : s.channel.refusal? with
  | some refusal =>
    have hn : e.notified? = none := by simp [Entry.notified?, hskips, href]
    simp only [Channel.offer, href]
    exact h.quiet hn hr ht hd
  | none =>
    have hn : e.notified? = some (p.stamped freshId now) := by
      simp [Entry.notified?, hskips, href, hcreated]
    have hroom : ¬ (s.channel.capacity ≤ s.channel.waiting.length ∨ s.channel.closed = true) := by
      rw [← refusal_isSome_iff, href]
      exact Bool.false_ne_true
    have hopen : dropped log = false := by
      rw [← h.closed_eq]
      exact Bool.eq_false_iff.mpr fun hclosed => hroom (Or.inr hclosed)
    have hlt : s.channel.waiting.length < max capacity 1 := by
      rw [← h.capacity_eq]
      exact Nat.lt_of_not_le fun hle => hroom (Or.inl hle)
    simp only [Channel.offer, href]
    refine ⟨h.capacity_eq, ?_, ?_, ?_, ?_, ?_⟩
    · rw [dropped_concat, hd, Bool.or_false]
      exact h.closed_eq
    · simp [queued, dropped_concat, notified_concat, delivered_concat, hn, hr, hd, hopen,
        h.notified_eq hopen]
    · simp only [List.length_append, List.length_singleton]
      omega
    · simp only [notified_concat, delivered_concat, hn, hr, Option.toList_none, List.append_nil]
      exact h.delivered_begins.trans (List.prefix_append _ _)
    · simpa [handed_concat, ht] using h.handed_out

/-- A read: the reader is given the oldest that is queued. -/
theorem receive (h : Agrees capacity log s.channel) :
    Agrees capacity (log ++ [Operation.receive.entry s]) s.channel.receive.2 := by
  have hans := answer_receive s
  have hd : (Operation.receive.entry s).drops = false := rfl
  generalize Operation.receive.entry s = e at *
  have hn : e.notified? = none := by
    apply notified_of_created_none
    unfold Entry.created?
    rw [hans]
  have ht : e.handsOut = false := by
    unfold Entry.handsOut
    rw [hans]
  have hr : e.delivered? = s.channel.waiting.head? := by
    unfold Entry.delivered?
    rw [hans]
  cases hw : s.channel.waiting with
  | nil =>
    rw [hw] at hr
    simp only [Channel.receive, hw]
    exact h.quiet hn hr ht hd
  | cons p rest =>
    rw [hw] at hr
    have hopen : dropped log = false := by
      cases hdropped : dropped log with
      | false => rfl
      | true =>
        have hnil := h.waiting_eq
        rw [queued, hdropped, hw] at hnil
        cases hnil
    have hnotified : notified log = delivered log ++ p :: rest := by
      rw [← hw]
      exact h.notified_eq hopen
    simp only [Channel.receive, hw]
    refine ⟨h.capacity_eq, ?_, ?_, ?_, ?_, ?_⟩
    · rw [dropped_concat, hd, Bool.or_false]
      exact h.closed_eq
    · simp [queued, dropped_concat, notified_concat, delivered_concat, hn, hr, hd, hopen,
        hnotified, ← List.drop_drop]
    · have := h.bounded
      rw [hw] at this
      exact Nat.le_of_succ_le this
    · simp only [notified_concat, delivered_concat, hn, hr, hnotified]
      exact ⟨rest, by simp⟩
    · simpa [handed_concat, ht] using h.handed_out

/-- A handing out: only the first one counts. -/
theorem take (h : Agrees capacity log s.channel) :
    Agrees capacity (log ++ [Operation.takeNotifications.entry s]) s.channel.take.2 := by
  have hans := answer_takeNotifications s
  have hd : (Operation.takeNotifications.entry s).drops = false := rfl
  generalize Operation.takeNotifications.entry s = e at *
  have hn : e.notified? = none := by
    apply notified_of_created_none
    unfold Entry.created?
    rw [hans]
  have hr : e.delivered? = none := by
    unfold Entry.delivered?
    rw [hans]
  have ht : e.handsOut = !s.channel.taken := by
    unfold Entry.handsOut
    rw [hans]
  refine ⟨h.capacity_eq, ?_, ?_, h.bounded, ?_, ?_⟩
  · rw [dropped_concat, hd, Bool.or_false]
    exact h.closed_eq
  · have hwaiting := h.waiting_eq
    simpa [queued, dropped_concat, notified_concat, delivered_concat, hn, hr, hd, Channel.take]
      using hwaiting
  · simpa [notified_concat, delivered_concat, hn, hr] using h.delivered_begins
  · rw [handed_concat, h.handed_out, ht]
    cases s.channel.taken <;> rfl

/-- A letting go: what was queued is lost, and nothing is given any more. -/
theorem close (h : Agrees capacity log s.channel) :
    Agrees capacity (log ++ [Operation.closeNotifications.entry s]) s.channel.close := by
  have hans : (Operation.closeNotifications.entry s).answer = .closed := rfl
  have hd : (Operation.closeNotifications.entry s).drops = true := rfl
  generalize Operation.closeNotifications.entry s = e at *
  have hn : e.notified? = none := by
    apply notified_of_created_none
    unfold Entry.created?
    rw [hans]
  have hr : e.delivered? = none := by
    unfold Entry.delivered?
    rw [hans]
  have ht : e.handsOut = false := by
    unfold Entry.handsOut
    rw [hans]
  refine ⟨h.capacity_eq, ?_, ?_, Nat.zero_le _, ?_, ?_⟩
  · rw [dropped_concat, hd, Bool.or_true]
    rfl
  · rw [queued, dropped_concat, hd, Bool.or_true]
    rfl
  · simpa [notified_concat, delivered_concat, hn, hr] using h.delivered_begins
  · rw [handed_concat, ht]
    exact h.handed_out

/-- Whatever is asked, the channel goes on to hold what the record says. -/
theorem perform (h : Agrees capacity log s.channel) (op : Operation) :
    Agrees capacity (log ++ [op.entry s]) (op.perform s).world.channel := by
  rw [Operation.channel_perform]
  cases op with
  | create p freshId now => exact h.create p freshId now
  | receive => exact h.receive
  | takeNotifications => exact h.take
  | closeNotifications => exact h.close
  | _ => exact h.quiet (notified_of_created_none rfl) rfl rfl rfl

/-- The run lemma: the channel holds what the record of the whole run says. -/
theorem run (h : Agrees capacity log s.channel) (ops : List Operation) :
    Agrees capacity (log ++ record s ops) (final s ops).channel :=
  Trace.keeps_record (P := fun log s => Agrees capacity log s.channel)
    (fun _ _ op h => h.perform op) h ops

end Agrees

/-! ## The laws -/

/-- The channel at an entry of a record holds what the record says up to there. -/
theorem agrees_record (capacity : Nat) (ops : List Operation) :
    Agrees capacity (record (ofCapacity capacity) ops) (final (ofCapacity capacity) ops).channel :=
  (agrees_ofCapacity capacity).run ops

/-- Every proposal of which word was passed on was stored. -/
theorem notified_sublist_created (log : List Entry) : (notified log).Sublist (created log) := by
  induction log with
  | nil => exact List.Sublist.refl _
  | cons e rest ih =>
    unfold notified created
    rw [List.filterMap_cons, List.filterMap_cons]
    unfold Entry.notified?
    cases e.skips with
    | false =>
      cases e.created? with
      | none => exact ih
      | some p => exact ih.cons_cons p
    | true =>
      cases e.created? with
      | none => exact ih
      | some p => exact ih.cons p

/-- Where nothing is skipped, word is passed on of all that was stored. -/
theorem notified_eq_created {log : List Entry}
    (h : ∀ e ∈ log, e.created? ≠ none → e.skips = false) : notified log = created log := by
  apply List.filterMap_congr
  intro e he
  unfold Entry.notified?
  split
  · rename_i hs
    cases hc : e.created? with
    | none => rfl
    | some p =>
      rw [h e he (by rw [hc]; simp)] at hs
      cases hs
  · rfl

theorem dropped_of_append {pre post : List Entry} (h : dropped (pre ++ post) = false) :
    dropped pre = false := by
  unfold dropped at h ⊢
  rw [List.any_append, Bool.or_eq_false_iff] at h
  exact h.1

/-- Only a creation stores a proposal. -/
theorem operation_of_created {op : Operation} {s : Store} (h : (op.entry s).created? ≠ none) :
    ∃ p freshId now, op = .create p freshId now := by
  cases op with
  | create p freshId now => exact ⟨p, freshId, now, rfl⟩
  | _ => exact absurd rfl h

/-- When word of a creation is skipped, at any place of a record. -/
theorem skips_iff_queued {capacity : Nat} {ops : List Operation} {pre post : List Entry}
    {e : Entry} (hlog : record (ofCapacity capacity) ops = pre ++ e :: post)
    (hop : ∃ p freshId now, e.move = .create p freshId now) :
    e.skips = true ↔ max capacity 1 ≤ (queued pre).length ∨ dropped pre = true := by
  obtain ⟨first, op, then_, _, rfl, rfl, _⟩ := Trace.exists_of_record_eq hlog
  obtain ⟨p, freshId, now, hop⟩ := hop
  cases hop
  have h := agrees_record capacity first
  rw [skips_create, refusal_isSome_iff, h.capacity_eq, h.waiting_eq, h.closed_eq]

/-- What was stored, if the reader is there and lets no creation find the queue
full. -/
theorem created_eq_of_room {capacity : Nat} {ops : List Operation}
    (hopen : dropped (record (ofCapacity capacity) ops) = false)
    (hroom : ∀ pre e post, record (ofCapacity capacity) ops = pre ++ e :: post →
      (∃ p freshId now, e.move = .create p freshId now) →
      (queued pre).length < max capacity 1) :
    created (record (ofCapacity capacity) ops) =
      delivered (record (ofCapacity capacity) ops) ++ queued (record (ofCapacity capacity) ops) := by
  have hnone : ∀ e ∈ record (ofCapacity capacity) ops, e.created? ≠ none → e.skips = false := by
    intro e he hc
    obtain ⟨pre, post, hlog⟩ := List.append_of_mem he
    obtain ⟨first, op, rfl⟩ := Trace.exists_of_mem_record he
    have hop := operation_of_created hc
    have hopenPre : dropped pre = false := by
      rw [hlog] at hopen
      exact dropped_of_append hopen
    have hlt := hroom pre _ post hlog hop
    rw [Bool.eq_false_iff, ne_eq, skips_iff_queued hlog hop, hopenPre]
    rintro (hle | hgone)
    · omega
    · cases hgone
  have h := agrees_record capacity ops
  rw [← notified_eq_created hnone, ← h.waiting_eq]
  exact h.notified_eq hopen

/-- A read that finds nothing leaves nothing queued. -/
theorem queued_of_received_none {capacity : Nat} {ops : List Operation} {pre : List Entry}
    {e : Entry} (hlog : record (ofCapacity capacity) ops = pre ++ [e])
    (hop : e.move = .receive) (hans : e.answer = .received none) :
    queued (record (ofCapacity capacity) ops) = [] := by
  have hwaiting := (agrees_record capacity ops).waiting_eq
  obtain ⟨first, op, then_, rfl, rfl, rfl, hpost⟩ := Trace.exists_of_record_eq hlog
  cases hop
  have hthen : then_ = [] := by
    cases then_ with
    | nil => rfl
    | cons op rest => cases hpost
  subst hthen
  rw [answer_receive, Answer.received.injEq, List.head?_eq_none_iff] at hans
  rw [← hwaiting, final, Trace.final_append]
  simp only [Trace.final]
  rw [Operation.channel_perform]
  simp only [Operation.passes, Channel.receive, hans]

/-- **Word of new proposals comes once, in order, and is lost only where the
queue is full or the reader has gone.** Whatever is asked of an empty store of
any capacity, its record keeps the laws of notifications. -/
theorem record_notificationLaws (capacity : Nat) (ops : List Operation) :
    NotificationLaws capacity (record (ofCapacity capacity) ops) where
  creation_stores := by
    intro e he p freshId now hop
    obtain ⟨first, op, rfl⟩ := Trace.exists_of_mem_record he
    cases hop
    exact ⟨answer_create p freshId now _, created_create p freshId now _⟩
  delivered_sublist :=
    (agrees_record capacity ops).delivered_begins.sublist.trans (notified_sublist_created _)
  delivered_begins := (agrees_record capacity ops).delivered_begins
  receives_oldest := by
    intro pre e post hlog hop
    obtain ⟨first, op, then_, _, rfl, rfl, _⟩ := Trace.exists_of_record_eq hlog
    cases hop
    rw [answer_receive, (agrees_record capacity first).waiting_eq]
  skips_iff := by
    intro pre e post hlog hop
    exact skips_iff_queued hlog hop
  bounded := by
    intro pre post hlog
    obtain ⟨first, _, _, rfl, _⟩ := Trace.exists_of_record_append hlog
    have h := agrees_record capacity first
    rw [← h.waiting_eq]
    exact h.bounded
  handed_out_once := by
    rw [(agrees_record capacity ops).handed_out]
    split
    · exact Nat.le_refl 1
    · exact Nat.zero_le 1
  complete := created_eq_of_room
  all_received := by
    intro hopen hroom pre e hlog hop hans
    rw [created_eq_of_room hopen hroom, queued_of_received_none hlog hop hans, List.append_nil]

end TriageDesk.Proposal.Store
