/-
TriageDesk.Proofs.Web.Requests — what requests ask of the desk, and what they
come to.

A request that is routed to a proposal has a `Wish`: to see it, to drop it, to
decide on it or to hand it in again. The last two need parameters, which the
body holds (`Holds`) if it is blank or an object; `paramsOf_eq_ok_iff` says that
just these bodies are taken, and `holds_written` that an object is taken however
it is written.

A wish becomes an operation on the store (`Wish.Asks`), and the answer to the
request is the store's own answer put in other words (`Wish.reply`).
`carryOut_asks` says so for every wish, `carryOut_unreadable` what happens if the
body holds no parameters, and `answer_other` what the other requests do.
-/
import TriageDesk.Proofs.Json.Decoding
import TriageDesk.Proofs.Proposal.Decisions
import TriageDesk.Proofs.Text.Octets
import TriageDesk.Web.Answer

namespace TriageDesk.Web

open Text

/-! ## Parameters in a body -/

/-- The parameters that a body holds: none if it is blank, and if it is an object, its members
as text. -/
inductive Holds (body : List UInt8) : Parameters → Prop
  | blank (blank : isBlankBody body = true) : Holds body ∅
  | object {members : Table Json} (solid : isBlankBody body = false)
      (reads : Json.Decoder.any.ofRunes (Rune.ofOctets body) = .ok (.ofTable members)) :
      Holds body (members.map asText)

/-- **The parameters that are taken from a body are those it holds.** -/
theorem paramsOf_eq_ok_iff {body : List UInt8} {params : Parameters} :
    paramsOf body = .ok params ↔ Holds body params := by
  unfold paramsOf
  cases blank : isBlankBody body with
  | true =>
    constructor
    · intro taken
      cases taken
      exact .blank blank
    · intro holds
      cases holds with
      | blank => rfl
      | object solid => exact absurd (blank.symm.trans solid) (by decide)
  | false =>
    have taken (t : Table Json) :
        (Json.Decoder.table .any).ofRunesWithMessage (Rune.ofOctets body) = .ok t ↔
          Json.Decoder.any.ofRunes (Rune.ofOctets body) = .ok (.ofTable t) :=
      Json.Decoder.ofRunesWithMessage_eq_ok_iff.trans Json.Decoder.ofRunes_values_iff
    simp only [Bool.false_eq_true, if_false]
    cases read : (Json.Decoder.table .any).ofRunesWithMessage (Rune.ofOctets body) with
    | error reason =>
      constructor
      · intro taken
        cases taken
      · intro holds
        cases holds with
        | blank is => exact absurd (blank.symm.trans is) (by decide)
        | object _ reads => exact absurd (read.symm.trans ((taken _).mpr reads)) (by simp)
    | ok members =>
      constructor
      · intro given
        cases given
        exact .object blank ((taken members).mp read)
      · intro holds
        cases holds with
        | blank is => exact absurd (blank.symm.trans is) (by decide)
        | object _ reads =>
          cases read.symm.trans ((taken _).mpr reads)
          rfl

theorem Holds.unique {body : List UInt8} {p q : Parameters} (hp : Holds body p)
    (hq : Holds body q) : p = q :=
  Except.ok.inj ((paramsOf_eq_ok_iff.mpr hp).symm.trans (paramsOf_eq_ok_iff.mpr hq))

/-- A body that holds no parameters is refused for a reason that lies in it alone. -/
theorem exists_refusal {body : List UInt8} (unreadable : ¬ ∃ params, Holds body params) :
    ∃ reason : String, paramsOf body = .error (.text 400 s!"invalid body: {reason}") := by
  cases taken : paramsOf body with
  | ok params => exact absurd ⟨params, paramsOf_eq_ok_iff.mp taken⟩ unreadable
  | error a =>
    unfold paramsOf at taken
    split at taken
    · cases taken
    · split at taken
      · cases taken
      · cases taken
        exact ⟨_, rfl⟩

/-- **An object is taken however it is written**, if its numbers are whole numbers of 64 bits
and not too many brackets are open at once. -/
theorem holds_written (g : Json.Gaps) {members : Table Json}
    (fits : Json.Fits Json.Reader.maxDepth (.ofTable members)) {w : Json}
    (arranges : Json.Arranges w (.ofTable members)) :
    Holds (octetsOf (String.ofList (Json.writeWith g 0 w))) (members.map asText) := by
  have solid : isBlankBody (octetsOf (String.ofList (Json.writeWith g 0 w))) = false := by
    have brace : ∃ cs, Json.writeWith g 0 w = '{' :: cs := by
      obtain ⟨es, _, rfl, _⟩ := arranges.object
      cases es <;> exact ⟨_, rfl⟩
    obtain ⟨cs, text⟩ := brace
    rw [octetsOf_eq_flatMap, String.toList_ofList, text]
    rfl
  have fit : ∀ e ∈ members.entries, Json.Fits 126 e.2 := by
    cases fits with
    | object fit => exact fit
  have read := (Json.Decoder.decodes_values fit).ofText arranges g
  rw [Json.Decoder.ofText, Json.Decoder.ofRunesWithMessage_eq_ok_iff,
    Json.Decoder.ofRunes_values_iff, ← ofOctets_octetsOf] at read
  exact .object solid read

/-! ## Wishes -/

/-- What a request asks of the desk about a proposal. -/
inductive Wish
  | look (id : String)
  | drop (id : String)
  | decide (id : String) (d : Proposal.Decision)
  | resubmit (id : String)
deriving DecidableEq

/-- The wish of a request, if it is about a proposal. -/
def Request.wish? (r : Request) : Option Wish :=
  match Route.ofPath r.path, r.method with
  | some (.proposal segment), "GET" => (idOf? segment).map .look
  | some (.proposal segment), "DELETE" => (idOf? segment).map .drop
  | some (.decision segment d), "POST" => (idOf? segment).map (.decide · d)
  | some (.resubmission segment), "POST" => (idOf? segment).map .resubmit
  | _, _ => none

namespace Wish

open Proposal (Store)

/-- The proposal that a wish is about. -/
def id : Wish → String
  | .look id | .drop id | .decide id _ | .resubmit id => id

/-- Whether a wish needs the parameters in the body. -/
def posts : Wish → Bool
  | .decide _ _ | .resubmit _ => true
  | _ => false

/-- The desk's answer to a wish. -/
def carryOut (body : List UInt8) : Wish → Act Desk Answer
  | .look id => showProposal id
  | .drop id => Web.drop id
  | .decide id d => decideOn id d body
  | .resubmit id => Web.resubmit id body

/-- The operation on the store that a wish comes to at a moment. -/
inductive Asks (now : Time.Instant) (body : List UInt8) : Wish → Store.Operation → Prop
  | look (id : String) : Asks now body (.look id) (.get id)
  | drop (id : String) : Asks now body (.drop id) (.delete id)
  | decide (id : String) (d : Proposal.Decision) {params : Parameters} (holds : Holds body params) :
    Asks now body (.decide id d) (.decide id d now)
  | resubmit (id : String) {params : Parameters} (holds : Holds body params) :
    Asks now body (.resubmit id) (.resubmit id params now)

/-- What a client is told when the store has answered. -/
def reply : Wish → Store.Answer → Answer
  | .look _, .found (some p) => .value p.toJson
  | .drop _, .deleted true => .bare 204
  | .decide id d, .decided (.ok ()) =>
    .value (.ofMembers [("status", .string d.status.name), ("id", .string id)])
  | .resubmit id, .resubmitted (.ok p) =>
    .value (.ofMembers [("status", .string "resubmitted"), ("id", .string id),
      ("proposal", p.toJson)])
  | .decide _ _, .decided (.error f) => .ofFailure f
  | .resubmit _, .resubmitted (.error f) => .ofFailure f
  | w, _ => .ofFailure (.notFound w.id)

end Wish

/-- The moment that the clock shows next. -/
def moment (d : Desk) : Time.Instant := d.supply.instant d.supply.instantsDrawn

variable {body : List UInt8} {w : Wish} {op : Proposal.Store.Operation} {d : Desk}

theorem decideProposal_apply (id : String) (e : Proposal.Decision) (d : Desk) :
    Desk.decideProposal id e d =
      ⟨(Proposal.Store.decide id e (moment d) d.store).result,
        { d with
          store := (Proposal.Store.decide id e (moment d) d.store).world
          supply := { d.supply with instantsDrawn := d.supply.instantsDrawn + 1 } },
        (Proposal.Store.decide id e (moment d) d.store).events⟩ := rfl

theorem resubmitProposal_apply (id : String) (params : Parameters) (d : Desk) :
    Desk.resubmitProposal id params d =
      ⟨(Proposal.Store.resubmit id params (moment d) d.store).result,
        { d with
          store := (Proposal.Store.resubmit id params (moment d) d.store).world
          supply := { d.supply with instantsDrawn := d.supply.instantsDrawn + 1 } },
        (Proposal.Store.resubmit id params (moment d) d.store).events⟩ := rfl

/-- **The desk does for a client what the store does**, and tells the client what came of it. -/
theorem carryOut_asks (asks : w.Asks (moment d) body op) :
    (w.carryOut body d).result = w.reply (op.perform d.store).result ∧
      (w.carryOut body d).world.store = (op.perform d.store).world := by
  cases asks with
  | look id =>
    simp only [Wish.carryOut, showProposal, Act.bind_apply, Act.look_apply]
    cases found : d.store.get? id <;>
      simp [Wish.reply, Wish.id, Proposal.Store.Operation.perform, found]
  | drop id =>
    simp only [Wish.carryOut, drop, Desk.onStore, Act.bind_apply, Act.within_apply,
      Proposal.Store.delete_apply]
    cases found : d.store.get? id <;>
      simp [Wish.reply, Wish.id, Proposal.Store.Operation.perform, Proposal.Store.delete_apply,
        found]
  | decide id e holds =>
    rw [Wish.carryOut, decideOn, paramsOf_eq_ok_iff.mpr holds]
    simp only [Act.bind_apply, decideProposal_apply, Proposal.Store.Operation.perform]
    cases (Proposal.Store.decide id e (moment d) d.store).result <;> exact ⟨rfl, rfl⟩
  | resubmit id holds =>
    rw [Wish.carryOut, resubmit, paramsOf_eq_ok_iff.mpr holds]
    simp only [Act.bind_apply, resubmitProposal_apply, Proposal.Store.Operation.perform]
    cases (Proposal.Store.resubmit id _ (moment d) d.store).result <;> exact ⟨rfl, rfl⟩

/-- A body that holds no parameters is refused before anything else is looked at. -/
theorem carryOut_unreadable (posts : w.posts = true) {a : Answer}
    (refused : paramsOf body = .error a) (d : Desk) : w.carryOut body d = ⟨a, d, []⟩ := by
  cases w with
  | decide id e => rw [Wish.carryOut, decideOn, refused]; rfl
  | resubmit id => rw [Wish.carryOut, resubmit, refused]; rfl
  | _ => cases posts

theorem asks_or_unreadable (w : Wish) (body : List UInt8) (now : Time.Instant) :
    (∃ op, w.Asks now body op) ∨ w.posts = true ∧ ¬ ∃ params, Holds body params := by
  by_cases held : ∃ params, Holds body params
  · obtain ⟨params, holds⟩ := held
    left
    cases w with
    | look id => exact ⟨_, .look id⟩
    | drop id => exact ⟨_, .drop id⟩
    | decide id e => exact ⟨_, .decide id e holds⟩
    | resubmit id => exact ⟨_, .resubmit id holds⟩
  · cases w with
    | look id => exact .inl ⟨_, .look id⟩
    | drop id => exact .inl ⟨_, .drop id⟩
    | _ => exact .inr ⟨rfl, held⟩

/-! ## What the store says, as a client is told -/

/-- Whether a request was carried out. -/
def Answer.succeeds (a : Answer) : Bool := decide (200 ≤ a.status ∧ a.status < 300)

namespace Answer

@[simp] theorem status_value (v : Json) : (value v).status = 200 := rfl

@[simp] theorem status_bare (status : Nat) : (bare status).status = status := rfl

@[simp] theorem status_notFound (id : String) : (ofFailure (.notFound id)).status = 404 := rfl

@[simp] theorem status_alreadyProcessed (id : String) (status : Proposal.Status) :
    (ofFailure (.alreadyProcessed id status)).status = 400 := rfl

end Answer

section Replies

open Proposal Store

variable {s : Store} {id : String} {p : Proposal}

theorem reply_look (s : Store) (id : String) :
    (Wish.look id).reply ((Operation.get id).perform s).result =
      match s.get? id with
      | some p => .value p.toJson
      | none => .ofFailure (.notFound id) := by
  cases found : s.get? id <;> simp [Operation.perform, Wish.reply, Wish.id, found]

theorem reply_drop (s : Store) (id : String) :
    (Wish.drop id).reply ((Operation.delete id).perform s).result =
      if (s.get? id).isSome then .bare 204 else .ofFailure (.notFound id) := by
  cases found : s.get? id <;>
    simp [Operation.perform, delete_apply, Wish.reply, Wish.id, found]

theorem reply_decide (s : Store) (id : String) (d : Decision) (now : Time.Instant) :
    (Wish.decide id d).reply ((Operation.decide id d now).perform s).result =
      match s.get? id with
      | some p =>
        if p.status = .pending then
          .value (.ofMembers [("status", .string d.status.name), ("id", .string id)])
        else .ofFailure (.alreadyProcessed id p.status)
      | none => .ofFailure (.notFound id) := by
  cases found : s.get? id with
  | none => simp [Operation.perform, decide_absent found, Wish.reply]
  | some p =>
    by_cases pending : p.status = .pending
    · simp [Operation.perform, decide_pending found pending, Wish.reply, pending]
    · simp [Operation.perform, decide_settled found pending, Wish.reply, pending]

theorem reply_resubmit (s : Store) (id : String) (params : Parameters) (now : Time.Instant) :
    (Wish.resubmit id).reply ((Operation.resubmit id params now).perform s).result =
      match s.get? id with
      | some p =>
        .value (.ofMembers [("status", .string "resubmitted"), ("id", .string id),
          ("proposal", (p.resubmitted params now).toJson)])
      | none => .ofFailure (.notFound id) := by
  cases found : s.get? id with
  | none => simp [Operation.perform, resubmit_absent found, Wish.reply]
  | some p => simp [Operation.perform, resubmit_present found, Wish.reply]

/-- What is not carried out leaves the store as it was. -/
theorem perform_refused {now : Time.Instant} (asks : w.Asks now body op)
    (refused : (w.reply (op.perform s).result).succeeds = false) : (op.perform s).world = s := by
  cases asks with
  | look id => rfl
  | drop id =>
    rw [reply_drop] at refused
    cases found : s.get? id with
    | none =>
      have same : s.proposals.erase id = s.proposals := erase_absent found
      simp [Operation.perform, delete_apply, same]
    | some p => simp [found, Answer.succeeds] at refused
  | decide id d =>
    rw [reply_decide] at refused
    cases found : s.get? id with
    | none => simp [Operation.perform, decide_absent found]
    | some p =>
      by_cases pending : p.status = .pending
      · simp [found, pending, Answer.succeeds] at refused
      · simp [Operation.perform, decide_settled found pending]
  | resubmit id =>
    rw [reply_resubmit] at refused
    cases found : s.get? id with
    | none => simp [Operation.perform, resubmit_absent found]
    | some p => simp [found, Answer.succeeds] at refused

/-- What is asked about one proposal leaves the others alone. -/
theorem leaves_elsewhere {now : Time.Instant} (asks : w.Asks now body op) (other : w.id ≠ id)
    (before : Option Proposal) : op.leaves id before = before := by
  cases asks with
  | look => rfl
  | _ => exact if_neg (Ne.symm other)

end Replies

/-! ## Requests -/

variable {r : Request}

/-- A request with a wish is answered by carrying it out. -/
theorem answer_wish (wish : r.wish? = some w) (activities : List Activity.Snapshot) :
    answer activities r = w.carryOut r.body := by
  unfold Request.wish? at wish
  split at wish
  case h_5 => cases wish
  all_goals
    rename_i route method
    obtain ⟨id, isId, rfl⟩ := Option.map_eq_some_iff.mp wish
    simp [answer, route, method, Route.methods, answerAt, withId, isId, Wish.carryOut]

theorem wish_of_reading (reads : r.method = "GET" ∨ r.method = "HEAD") (wish : r.wish? = some w) :
    ∃ id, w = .look id := by
  unfold Request.wish? at wish
  split at wish
  case h_1 =>
    obtain ⟨id, _, rfl⟩ := Option.map_eq_some_iff.mp wish
    exact ⟨id, rfl⟩
  case h_5 => cases wish
  all_goals
    rename_i method
    simp [method] at reads

theorem showProposal_world (id : String) (d : Desk) : (showProposal id d).world = d := by
  simp only [showProposal, Act.bind_apply, Act.look_apply]
  cases d.store.get? id <;> rfl

theorem withId_world {segment : List Char} {act : String → Act Desk Answer} {d : Desk}
    (keeps : ∀ id, idOf? segment = some id → (act id d).world = d) :
    (withId segment act d).world = d := by
  unfold withId
  cases isId : idOf? segment with
  | none => rfl
  | some id => exact keeps id isId

/-- A request without a wish leaves the desk as it was. -/
theorem answer_other (none : r.wish? = none) (activities : List Activity.Snapshot) (d : Desk) :
    (answer activities r d).world = d := by
  have allowed (route : Route) (is : Route.ofPath r.path = some route)
      (method : r.method ∈ route.methods) : (answerAt activities r route d).world = d := by
    unfold Request.wish? at none
    cases route with
    | proposal segment =>
      refine withId_world fun id isId => ?_
      have asks : r.method ≠ "GET" ∧ r.method ≠ "DELETE" := by
        constructor <;> intro method <;> simp [is, method, isId] at none
      rw [if_neg asks.2]
      exact showProposal_world id d
    | decision segment e =>
      refine withId_world fun id isId => ?_
      simp [is, List.mem_singleton.mp method, isId] at none
    | resubmission segment =>
      refine withId_world fun id isId => ?_
      simp [is, List.mem_singleton.mp method, isId] at none
    | _ => rfl
  unfold answer
  cases is : Route.ofPath r.path with
  | none => rfl
  | some route =>
    by_cases method : r.method ∈ route.methods
    · simp only [method, not_true, if_false, Act.bind_apply]
      exact allowed route is method
    · simp only [method, not_false_eq_true, if_true]
      rfl

end TriageDesk.Web
