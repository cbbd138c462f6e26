/-
TriageDesk.Web.Answer — how requests to the desk's pages are answered.

Proposals are listed, shown, dropped, decided on and handed in again; the
activities are shown as they stand. A request that cannot be carried out is
answered with the reason as plain text, and leaves everything as it was. The
body of a request is looked at before the proposal that it is about.

Follows the handlers `api_proposals_list`, `api_proposal_get`,
`api_proposal_delete`, `api_proposal_accept`, `api_proposal_ignore`,
`api_proposal_resubmit` and `api_activities`, with `parse_params_body`, here
`paramsOf`, `api_error`, here `ofFailure`, and `ProposalSummary`, here
`summary`.
-/
import TriageDesk.Activity.Snapshot
import TriageDesk.Desk
import TriageDesk.Http.Form
import TriageDesk.Proposal.Wire
import TriageDesk.Web.Route

namespace TriageDesk.Web

open Text

/-! ## Requests and answers -/

/-- A request. -/
structure Request where
  method : String
  path : List Char
  query : Option (List Char)
  body : List UInt8

/-- A request for an address. -/
def Request.ofTarget (method target : String) (body : List UInt8) : Request :=
  let target := target.toList.takeWhile (· ≠ '#')
  match splitOnce '?' target with
  | some (path, query) => ⟨method, path, some query, body⟩
  | none => ⟨method, target, none, body⟩

/-- What an answer carries. -/
inductive Payload
  | nothing
  | text (s : String)
  | value (v : Json)
  | events
  /-- Only what kind of payload there would be. -/
  | withheld (contentType : Option String)

/-- The content type of a payload. -/
def Payload.contentType : Payload → Option String
  | .nothing => none
  | .text _ => some "text/plain; charset=utf-8"
  | .value _ => some "application/json"
  | .events => some "text/event-stream"
  | .withheld contentType => contentType

/-- A payload as it is written. -/
def Payload.write : Payload → String
  | .text s => s
  | .value v => v.compact
  | .nothing | .events | .withheld _ => ""

/-- The answer to a request. -/
structure Answer where
  status : Nat
  payload : Payload
  /-- The methods that are allowed, where the request had another one. -/
  allowed : List String

namespace Answer

/-- An answer with a text. -/
def text (status : Nat) (s : String) : Answer := ⟨status, .text s, []⟩

/-- An answer with a value. -/
def value (v : Json) : Answer := ⟨200, .value v, []⟩

/-- An answer without a payload. -/
def bare (status : Nat) : Answer := ⟨status, .nothing, []⟩

/-- The answer to a request with a method that is not one of those allowed. -/
def notAllowed (methods : List String) : Answer := ⟨405, .nothing, methods⟩

/-- The answer without its payload. -/
def withhold (a : Answer) : Answer := { a with payload := .withheld a.payload.contentType }

/-- The answer to a request that the store did not carry out. -/
def ofFailure (f : Proposal.Store.Failure) : Answer :=
  match f with
  | .notFound _ => text 404 f.message
  | .alreadyProcessed .. => text 400 f.message

end Answer

/-! ## Parameters in a body -/

/-- A value as text: a string is its own, any other value is written out. -/
def asText : Json → String
  | .string s => s
  | v => v.compact

/-- Whether a body holds nothing but white space. -/
def isBlankBody (body : List UInt8) : Bool := body.all fun b => isAsciiBlank (Char.ofNat b.toNat)

/-- The parameters that a body gives; a blank one gives none. -/
def paramsOf (body : List UInt8) : Except Answer Parameters :=
  if isBlankBody body then .ok ∅
  else
    match (Json.Decoder.table .any).ofRunesWithMessage (Rune.ofOctets body) with
    | .ok members => .ok (members.map asText)
    | .error reason => .error (.text 400 s!"invalid body: {reason}")

/-! ## The list of proposals -/

/-- Whether a proposal is listed before another or could be: it is newer, or as old
and its id does not come later. -/
def listedBefore (p q : Proposal) : Bool :=
  q.createdAt.before p.createdAt || (p.createdAt = q.createdAt && decide (p.id ≤ q.id))

/-- Proposals, the newest first. -/
def newestFirst (proposals : List Proposal) : List Proposal := proposals.mergeSort listedBefore

/-- A proposal as it is listed. -/
def summary (p : Proposal) : Json :=
  .ofMembers [("id", .string p.id), ("type", .string p.kind), ("title", .string p.title),
    ("summary", .string p.summary), ("status", .string p.status.name),
    ("createdAt", .string p.createdAt.writeShort), ("updatedAt", .string p.updatedAt.writeShort)]

/-- The value of the field `status` in a query; it may occur once. -/
def statusField (query : Option (List Char)) : Except Answer (Option String) :=
  match ((query.map Http.Form.read).getD []).filter (·.1 = "status") with
  | [] => .ok none
  | [(_, value)] => .ok (some value)
  | _ => .error (.text 400 "Failed to deserialize query string: duplicate field `status`")

/-- The status to which a list is to be restricted, if it is. -/
def statusFilter (query : Option (List Char)) : Except Answer (Option Proposal.Status) := do
  match ← statusField query with
  | none => return none
  | some value =>
    if allBlank value then return none
    match Proposal.Status.parse? value with
    | some status => return some status
    | none => throw (.text 400 s!"unknown status: {trimmed value}")

/-- Whether a proposal has the status to which a list is restricted. -/
def passes (restriction : Option Proposal.Status) (p : Proposal) : Bool :=
  restriction.all fun status => p.status = status

/-- The proposals that a query asks for. -/
def listed (store : Proposal.Store) (query : Option (List Char)) :
    Except Answer (List Proposal) := do
  let restriction ← statusFilter query
  return newestFirst (store.all.filter (passes restriction))

/-! ## Answering -/

/-- The result of a request, be it carried out or not. -/
def settled : Except Answer Answer → Answer
  | .ok a => a
  | .error a => a

/-- Shows the list of proposals. -/
def showList (query : Option (List Char)) : Act Desk Answer := do
  let d ← Act.look
  return settled do
    return .value (.array ((← listed d.store query).map summary))

/-- Shows a proposal. -/
def showProposal (id : String) : Act Desk Answer := do
  match (← Act.look).store.get? id with
  | some p => return .value p.toJson
  | none => return .ofFailure (.notFound id)

/-- Drops a proposal. -/
def drop (id : String) : Act Desk Answer := do
  if ← Desk.onStore (Proposal.Store.delete id) then return .bare 204
  else return .ofFailure (.notFound id)

/-- Decides on a proposal. The parameters in the body have to be sound and do nothing. -/
def decideOn (id : String) (d : Proposal.Decision) (body : List UInt8) : Act Desk Answer := do
  match paramsOf body with
  | .error a => return a
  | .ok _ =>
    match ← Desk.decideProposal id d with
    | .ok () => return .value (.ofMembers [("status", .string d.status.name), ("id", .string id)])
    | .error f => return .ofFailure f

/-- Hands a proposal in again with the parameters in the body. -/
def resubmit (id : String) (body : List UInt8) : Act Desk Answer := do
  match paramsOf body with
  | .error a => return a
  | .ok params =>
    match ← Desk.resubmitProposal id params with
    | .ok p =>
      return .value (.ofMembers [("status", .string "resubmitted"), ("id", .string id),
        ("proposal", p.toJson)])
    | .error f => return .ofFailure f

/-- Does something with the proposal of an id, if the id is text. -/
def withId (segment : List Char) (act : String → Act Desk Answer) : Act Desk Answer :=
  match idOf? segment with
  | some id => act id
  | none => return .text 400 "Invalid URL: Invalid UTF-8 in `id`"

/-- Answers a request with one of the methods of its route. -/
def answerAt (activities : List Activity.Snapshot) (r : Request) : Route → Act Desk Answer
  | .health => return .text 200 "OK"
  | .proposals => showList r.query
  | .proposal id => withId id fun id => if r.method = "DELETE" then drop id else showProposal id
  | .decision id d => withId id fun id => decideOn id d r.body
  | .resubmission id => withId id fun id => resubmit id r.body
  | .activities => return .value (.array (activities.map Activity.Snapshot.toJson))
  | .events => return ⟨200, .events, []⟩

/-- Answers a request, where the activities stand as given. -/
def answer (activities : List Activity.Snapshot) (r : Request) : Act Desk Answer := do
  match Route.ofPath r.path with
  | none => return .bare 404
  | some route =>
    if r.method ∉ route.methods then return .notAllowed route.methods
    let a ← answerAt activities r route
    return if r.method = "HEAD" then a.withhold else a

end TriageDesk.Web
