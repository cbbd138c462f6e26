/-
TriageDesk.Proofs.Web.Surface — the pages of the proposals are the store, seen
from outside.

A `Visit` is a request, whatever it holds; a record of visits says how each was
answered. `SurfaceLaws` says what any record shows: which answer comes when, in
terms of the store as it was and of the body alone, what each request changes,
and that what is handed in again is what is shown afterwards.

All of it rests on a simulation. `Refines` puts a record of visits beside a
record of the store: a request that asks something of the store has its entry
there, with the same stores before and after it and an answer that says the
same; every other request leaves the desk as it was. `served_or_idle` is its
step and `refines_record` its run. `record_surfaceLaws` is the theorem.
-/
import TriageDesk.Proofs.Trace
import TriageDesk.Proofs.Web.Addresses

namespace TriageDesk.Web

open Proposal (Store)

/-- A request, at a time when the activities stand as given. -/
structure Visit where
  activities : List Activity.Snapshot
  request : Request

namespace Visit

/-- Answers the request. -/
def perform (v : Visit) : Act Desk Answer := answer v.activities v.request

/-- What there is to say of a visit. -/
abbrev Entry := Trace.Entry Desk Visit Answer

/-- The entry of a visit. -/
abbrev entry (v : Visit) (d : Desk) : Entry := Trace.entry Visit.perform v d

/-- The record of visits. -/
abbrev record (d : Desk) (visits : List Visit) : List Entry := Trace.record Visit.perform d visits

/-- The desk after visits. -/
abbrev final (d : Desk) (visits : List Visit) : Desk := Trace.final Visit.perform d visits

/-- The wish of a visit, if it is about a proposal. -/
def Entry.wish? (e : Entry) : Option Wish := e.move.request.wish?

/-- The body that came with a visit. -/
def Entry.body (e : Entry) : List UInt8 := e.move.request.body

/-- The proposal of an id before a visit. -/
def Entry.found? (e : Entry) (id : String) : Option Proposal := e.before.store.get? id

/-- A visit comes to an operation on the store. -/
def Entry.Asks (e : Entry) (op : Store.Operation) : Prop :=
  ∃ w, e.wish? = some w ∧ w.Asks (moment e.before) e.body op

/-! ## The laws -/

/-- A record of visits beside a record of the store. -/
inductive Refines : List Entry → List Store.Entry → Prop
  | nil : Refines [] []
  /-- What a visit asks of the store is done there, and the client is told what came of it. -/
  | served {e : Entry} {s : Store.Entry} {log : List Entry} {entries : List Store.Entry} {w : Wish}
      (wish : e.wish? = some w) (asks : w.Asks (moment e.before) e.body s.move)
      (before : s.before = e.before.store) (after : s.after = e.after.store)
      (told : e.answer = w.reply s.answer) (rest : Refines log entries) :
      Refines (e :: log) (s :: entries)
  /-- A visit that asks nothing of the store leaves the desk as it was. -/
  | idle {e : Entry} {log : List Entry} {entries : List Store.Entry}
      (asks : ¬ ∃ op, e.Asks op) (keeps : e.after = e.before) (rest : Refines log entries) :
      Refines (e :: log) entries

/-- How a decision is answered, and what it leaves. -/
structure DecisionAnswer (e : Entry) (id : String) (d : Proposal.Decision) : Prop where
  notFound_iff : e.answer.status = 404 ↔ e.found? id = none
  processed_iff : e.answer.status = 400 ↔ ∃ p : Proposal, e.found? id = some p ∧ p.status ≠ .pending
  done_iff : e.answer.status = 200 ↔ ∃ p : Proposal, e.found? id = some p ∧ p.status = .pending
  store : e.after.store = (Store.decide id d (moment e.before) e.before.store).world

/-- How a hand-in is answered, and what it leaves. -/
structure ResubmissionAnswer (e : Entry) (id : String) (params : Parameters) : Prop where
  notFound_iff : e.answer.status = 404 ↔ e.found? id = none
  done_iff : e.answer.status = 200 ↔ ∃ p, e.found? id = some p
  store : e.after.store = (Store.resubmit id params (moment e.before) e.before.store).world
  /-- The client is given the proposal that is stored from then on. -/
  returned : e.answer.status = 200 → ∃ q : Proposal, e.after.store.get? id = some q ∧
    e.answer = .value (.ofMembers [("status", .string "resubmitted"), ("id", .string id),
      ("proposal", q.toJson)])

/-- How a deletion is answered, and what it leaves. -/
structure DeletionAnswer (e : Entry) (id : String) : Prop where
  done_iff : e.answer.status = 204 ↔ ∃ p, e.found? id = some p
  notFound_iff : e.answer.status = 404 ↔ e.found? id = none
  /-- That proposal is gone, and everything else is as it was. -/
  removed : ∀ k, e.after.store.get? k = if k = id then none else e.found? k
  channel : e.after.store.channel = e.before.store.channel

/-- How a request to see a proposal is answered. -/
structure LookAnswer (e : Entry) (id : String) : Prop where
  found_iff : e.answer.status = 200 ↔ ∃ p, e.found? id = some p
  notFound_iff : e.answer.status = 404 ↔ e.found? id = none
  shown : ∀ p, e.found? id = some p → e.answer = .value p.toJson

/-- What a record of visits shows. -/
structure SurfaceLaws (log : List Entry) (first last : Desk) : Prop where
  /-- Reading changes nothing. -/
  reading_keeps : ∀ e ∈ log, e.move.request.method = "GET" ∨ e.move.request.method = "HEAD" →
    e.after = e.before
  /-- A body that holds no parameters is refused with an answer that depends on it alone. -/
  unreadable : ∀ e ∈ log, ∀ w, e.wish? = some w → w.posts = true →
    (¬ ∃ params, Holds e.body params) →
      e.answer.status = 400 ∧ paramsOf e.body = .error e.answer ∧ e.after = e.before
  /-- An object is no such body, however it is written, if its numbers are whole numbers of 64
  bits and not too many brackets are open at once. -/
  object_held : ∀ e ∈ log, ∀ g w members, Json.Arranges w (.ofTable members) →
    Json.Fits Json.Reader.maxDepth (.ofTable members) →
    e.body = Text.octetsOf (String.ofList (Json.writeWith g 0 w)) →
      Holds e.body (members.map asText)
  decision : ∀ e ∈ log, ∀ id d, e.wish? = some (.decide id d) →
    ∀ params, Holds e.body params → DecisionAnswer e id d
  resubmission : ∀ e ∈ log, ∀ id, e.wish? = some (.resubmit id) →
    ∀ params, Holds e.body params → ResubmissionAnswer e id params
  deletion : ∀ e ∈ log, ∀ id, e.wish? = some (.drop id) → DeletionAnswer e id
  look : ∀ e ∈ log, ∀ id, e.wish? = some (.look id) → LookAnswer e id
  /-- Whatever is not answered with success leaves the store as it was. -/
  refusal_keeps : ∀ e ∈ log, e.answer.succeeds = false → e.after.store = e.before.store
  /-- What was handed in again is what is shown, as long as nobody else changes it. -/
  shown_again : ∀ pre e mid g post id, log = pre ++ e :: (mid ++ g :: post) →
    e.wish? = some (.resubmit id) → e.answer.status = 200 →
    (∀ m ∈ mid, ∀ w, m.wish? = some w → w.id = id → w = .look id ∨ m.answer.succeeds = false) →
    g.wish? = some (.look id) →
      ∃ q : Proposal, e.after.store.get? id = some q ∧
        e.answer = .value (.ofMembers [("status", .string "resubmitted"), ("id", .string id),
          ("proposal", q.toJson)]) ∧
        g.answer = .value q.toJson
  /-- Visits are operations on the store, one after the other. -/
  refines : ∃ ops, Refines log (Store.record first.store ops) ∧
    last.store = Store.final first.store ops

/-! ## One visit -/

variable {v : Visit} {d : Desk} {w : Wish}

theorem entry_of_wish (wish : (entry v d).wish? = some w) :
    (entry v d).answer = (w.carryOut v.request.body d).result ∧
      (entry v d).after = (w.carryOut v.request.body d).world := by
  have same : v.perform = w.carryOut v.request.body := answer_wish wish v.activities
  exact ⟨congrArg (fun act => (act d).result) same, congrArg (fun act => (act d).world) same⟩

/-- A visit that asks something of the store is told what came of it there. -/
theorem entry_of_asks {op : Store.Operation} (wish : (entry v d).wish? = some w)
    (asks : w.Asks (moment d) v.request.body op) :
    (entry v d).answer = w.reply (op.perform d.store).result ∧
      (entry v d).after.store = (op.perform d.store).world := by
  obtain ⟨answer, after⟩ := entry_of_wish wish
  obtain ⟨result, world⟩ := carryOut_asks asks
  exact ⟨answer.trans result, (congrArg Desk.store after).trans world⟩

theorem entry_unreadable (wish : (entry v d).wish? = some w) (posts : w.posts = true)
    (unreadable : ¬ ∃ params, Holds v.request.body params) :
    (entry v d).answer.status = 400 ∧ paramsOf v.request.body = .error (entry v d).answer ∧
      (entry v d).after = d := by
  obtain ⟨reason, refused⟩ := exists_refusal unreadable
  obtain ⟨answer, after⟩ := entry_of_wish wish
  rw [carryOut_unreadable posts refused] at answer after
  exact ⟨congrArg Answer.status answer, answer ▸ refused, after⟩

/-- A visit has its entry in the record of the store, or leaves the desk as it was. -/
theorem served_or_idle (v : Visit) (d : Desk) :
    (∃ w op, (entry v d).wish? = some w ∧ w.Asks (moment d) v.request.body op) ∨
      (¬ ∃ op, (entry v d).Asks op) ∧ (entry v d).after = d := by
  cases wish : (entry v d).wish? with
  | none =>
    refine .inr ⟨?_, answer_other wish v.activities d⟩
    rintro ⟨_, _, same, _⟩
    exact absurd (wish.symm.trans same) (by simp)
  | some w =>
    rcases asks_or_unreadable w v.request.body (moment d) with ⟨op, asks⟩ | ⟨posts, unreadable⟩
    · exact .inl ⟨w, op, rfl, asks⟩
    · refine .inr ⟨?_, (entry_unreadable wish posts unreadable).2.2⟩
      rintro ⟨op, u, same, asks⟩
      cases wish.symm.trans same
      cases asks with
      | decide id d holds => exact unreadable ⟨_, holds⟩
      | resubmit id holds => exact unreadable ⟨_, holds⟩
      | _ => cases posts

/-! ### How each wish is answered -/

variable {id : String} {e : Proposal.Decision} {params : Parameters}

theorem decisionAnswer (wish : (entry v d).wish? = some (.decide id e))
    (holds : Holds v.request.body params) : DecisionAnswer (entry v d) id e := by
  obtain ⟨answer, store⟩ := entry_of_asks wish (.decide id e holds)
  rw [reply_decide] at answer
  have found : (entry v d).found? id = d.store.get? id := rfl
  cases there : d.store.get? id with
  | none =>
    rw [there] at answer
    refine ⟨?_, ?_, ?_, store⟩ <;> rw [answer] <;> simp [found, there]
  | some p =>
    rw [there] at answer
    by_cases pending : p.status = .pending
    · refine ⟨?_, ?_, ?_, store⟩ <;> rw [answer] <;> simp [found, there, pending]
    · refine ⟨?_, ?_, ?_, store⟩ <;> rw [answer] <;> simp [found, there, pending]

theorem resubmissionAnswer (wish : (entry v d).wish? = some (.resubmit id))
    (holds : Holds v.request.body params) : ResubmissionAnswer (entry v d) id params := by
  obtain ⟨answer, store⟩ := entry_of_asks wish (.resubmit id holds)
  rw [reply_resubmit] at answer
  have after := Store.Operation.get?_perform (.resubmit id params (moment d)) d.store id
  rw [← store] at after
  have found : (entry v d).found? id = d.store.get? id := rfl
  cases there : d.store.get? id with
  | none =>
    rw [there] at answer
    refine ⟨?_, ?_, store, ?_⟩ <;> rw [answer] <;> simp [found, there]
  | some p =>
    rw [there] at answer after
    have stored : (entry v d).after.store.get? id = some (p.resubmitted params (moment d)) := by
      simpa [Store.Operation.leaves] using after
    refine ⟨?_, ?_, store, fun _ => ⟨_, stored, answer⟩⟩ <;> rw [answer] <;>
      simp [found, there]

theorem returned_of_done (wish : (entry v d).wish? = some (.resubmit id))
    (done : (entry v d).answer.status = 200) :
    ∃ q : Proposal, (entry v d).after.store.get? id = some q ∧
      (entry v d).answer = .value (.ofMembers [("status", .string "resubmitted"),
        ("id", .string id), ("proposal", q.toJson)]) := by
  by_cases held : ∃ params, Holds v.request.body params
  · obtain ⟨params, holds⟩ := held
    exact (resubmissionAnswer wish holds).returned done
  · have refused := (entry_unreadable wish rfl held).1
    exact absurd (done.symm.trans refused) (by decide)

theorem deletionAnswer (wish : (entry v d).wish? = some (.drop id)) :
    DeletionAnswer (entry v d) id := by
  obtain ⟨answer, store⟩ := entry_of_asks wish (.drop id)
  rw [reply_drop] at answer
  have found : (entry v d).found? id = d.store.get? id := rfl
  refine ⟨?_, ?_, fun k => ?_, ?_⟩
  · rw [answer, found]
    cases d.store.get? id <;> simp
  · rw [answer, found]
    cases d.store.get? id <;> simp
  · rw [store]
    exact Store.Operation.get?_perform (.delete id) d.store k
  · rw [store]
    exact Store.Operation.channel_perform (.delete id) d.store

theorem lookAnswer (wish : (entry v d).wish? = some (.look id)) : LookAnswer (entry v d) id := by
  have answer := (entry_of_asks wish (.look id)).1
  rw [reply_look] at answer
  have found : (entry v d).found? id = d.store.get? id := rfl
  refine ⟨?_, ?_, fun p there => ?_⟩
  · rw [answer, found]
    cases d.store.get? id <;> simp
  · rw [answer, found]
    cases d.store.get? id <;> simp
  · rw [answer, ← found, there]

/-! ### What a visit leaves -/

theorem entry_refused (refused : (entry v d).answer.succeeds = false) :
    (entry v d).after.store = d.store := by
  rcases served_or_idle v d with ⟨w, op, wish, asks⟩ | ⟨_, keeps⟩
  · obtain ⟨answer, store⟩ := entry_of_asks wish asks
    rw [answer] at refused
    exact store.trans (perform_refused asks refused)
  · exact congrArg Desk.store keeps

theorem entry_reading (reads : v.request.method = "GET" ∨ v.request.method = "HEAD") :
    (entry v d).after = d := by
  cases wish : (entry v d).wish? with
  | none => exact answer_other wish v.activities d
  | some w =>
    obtain ⟨id, rfl⟩ := wish_of_reading reads wish
    exact (entry_of_wish wish).2.trans (showProposal_world id d)

/-- A proposal that nobody changes stays. -/
theorem entry_elsewhere (alone : ∀ w, (entry v d).wish? = some w → w.id = id →
    w = .look id ∨ (entry v d).answer.succeeds = false) :
    (entry v d).after.store.get? id = d.store.get? id := by
  rcases served_or_idle v d with ⟨w, op, wish, asks⟩ | ⟨_, keeps⟩
  · by_cases same : w.id = id
    · rcases alone w wish same with rfl | refused
      · cases asks
        rw [(entry_of_asks wish (.look id)).2]
        rfl
      · rw [entry_refused refused]
    · rw [(entry_of_asks wish asks).2, Store.Operation.get?_perform, leaves_elsewhere asks same]
  · rw [keeps]

/-! ## All visits -/

variable {visits : List Visit}

/-- A proposal that nobody changes stays for as many visits as there are. -/
theorem get?_final (alone : ∀ m ∈ record d visits, ∀ w, m.wish? = some w → w.id = id →
    w = .look id ∨ m.answer.succeeds = false) :
    (final d visits).store.get? id = d.store.get? id := by
  induction visits generalizing d with
  | nil => rfl
  | cons v visits ih =>
    have rest := ih (d := (v.perform d).world) fun m among =>
      alone m (List.mem_cons_of_mem _ among)
    exact rest.trans (entry_elsewhere (alone _ List.mem_cons_self))

/-- **Visits are operations on the store**, and the answers are the store's. -/
theorem refines_record (d : Desk) (visits : List Visit) :
    ∃ ops, Refines (record d visits) (Store.record d.store ops) ∧
      (final d visits).store = Store.final d.store ops := by
  induction visits generalizing d with
  | nil => exact ⟨[], .nil, rfl⟩
  | cons v visits ih =>
    obtain ⟨ops, rest, ends⟩ := ih (v.perform d).world
    rcases served_or_idle v d with ⟨w, op, wish, asks⟩ | ⟨nothing, keeps⟩
    · obtain ⟨answer, store⟩ := entry_of_asks wish asks
      have next : (v.perform d).world.store = (op.perform d.store).world := store
      rw [next] at rest ends
      exact ⟨op :: ops, .served wish asks rfl store.symm answer rest, ends⟩
    · have next : (v.perform d).world = d := keeps
      rw [next] at rest ends
      refine ⟨ops, .idle nothing keeps ?_, ?_⟩
      · show Refines (record (v.perform d).world visits) _
        rwa [next]
      · show (final (v.perform d).world visits).store = _
        rwa [next]

theorem surfaceLaws_record (d : Desk) (visits : List Visit) :
    SurfaceLaws (record d visits) d (final d visits) := by
  have each {P : Entry → Prop} (holds : ∀ v d, P (entry v d)) : ∀ e ∈ record d visits, P e := by
    intro e among
    obtain ⟨first, v, rfl⟩ := Trace.exists_of_mem_record among
    exact holds v _
  constructor
  case reading_keeps => exact each fun v d reads => entry_reading reads
  case unreadable => exact each fun v d w wish posts none => entry_unreadable wish posts none
  case object_held =>
    intro e _ g w members arranges fits written
    rw [written]
    exact holds_written g fits arranges
  case decision => exact each fun v d id e wish params holds => decisionAnswer wish holds
  case resubmission => exact each fun v d id wish params holds => resubmissionAnswer wish holds
  case deletion => exact each fun v d id wish => deletionAnswer wish
  case look => exact each fun v d id wish => lookAnswer wish
  case refusal_keeps => exact each fun v d refused => entry_refused refused
  case refines => exact refines_record d visits
  case shown_again =>
    intro pre e mid g post id cut wish done alone looks
    obtain ⟨first, v, last, _, _, rfl, later⟩ := Trace.exists_of_record_eq cut
    obtain ⟨between, u, _, _, rfl, rfl, _⟩ := Trace.exists_of_record_eq later.symm
    obtain ⟨q, stored, answer⟩ := returned_of_done wish done
    have kept := (get?_final alone).trans stored
    exact ⟨q, stored, answer, (lookAnswer looks).shown q kept⟩

/-- **The pages of the proposals are the store, seen from outside**, and nothing that can be asked
about a proposal is out of reach, whatever its id and the body. -/
theorem record_surfaceLaws (d : Desk) (visits : List Visit) :
    SurfaceLaws (record d visits) d (final d visits) ∧
      ∀ w : Wish, w.id ≠ "" → ∀ body, ∃ r : Request, r.body = body ∧ r.wish? = some w := by
  refine ⟨surfaceLaws_record d visits, fun w named body => ⟨w.request body, ?_, ?_⟩⟩
  · cases w <;> rfl
  · exact wish?_request w named body

/-! ### Objects with too many brackets -/

/-- Lists inside one another. -/
def tower : Nat → Json
  | 0 => .array []
  | n + 1 => .array [tower n]

/-- A request to accept a proposal, with an object as body that holds a tower. -/
def towering (n : Nat) : Visit :=
  ⟨[], .ofTarget "POST" "/api/proposal/x/accept"
    (Text.octetsOf (Json.object [("a", tower n)]).compact)⟩

/-- A desk at which nothing has been done, and where nothing ever happens. -/
def quietDesk : Desk := .fresh ⟨fun _ => default, fun _ => "", fun _ _ => .noServer, 0, 0⟩

/-- An object in which too many brackets are open at once is refused, although it is an object and
the proposal is not there. -/
theorem towering_refused :
    (towering 126).request.body = Text.octetsOf (Json.object [("a", tower 126)]).compact ∧
      (towering 126).request.wish? = some (.decide "x" .accept) ∧
      quietDesk.store.get? "x" = none ∧
      ((towering 126).perform quietDesk).result.status = 400 := by
  decide +kernel

-- one bracket less, and the proposal is missed
example : ((towering 125).perform quietDesk).result.status = 404 := by decide +kernel

end Visit

end TriageDesk.Web
