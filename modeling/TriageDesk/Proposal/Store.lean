/-
TriageDesk.Proposal.Store — the proposals that are kept, and the decisions
on them.

A pending proposal is accepted or ignored; one of any status can be handed
in again with other values of its parameters and is then modified. Each
operation takes the moment at which it happens from its caller. An
operation that fails leaves everything as it was.

Follows `ProposalStore`: `create`, `get`, `get_all`, `get_pending`, `resubmit`,
`delete`, `take_notifications`, and `accept` and `ignore`, which are both
`decide`. Its failures are those of `SecOpsError`.
-/
import TriageDesk.Act
import TriageDesk.Proposal.Channel

namespace TriageDesk.Proposal

open Time

/-- The proposals that are kept, under their ids, and the word of new ones. -/
structure Store where
  proposals : Table Proposal
  channel : Channel

/-- Why an operation failed. -/
inductive Store.Failure
  | notFound (id : String)
  | alreadyProcessed (id : String) (status : Status)
deriving DecidableEq, Repr

/-- A failure in words. -/
def Store.Failure.message : Store.Failure → String
  | .notFound id => s!"proposal not found: {id}"
  | .alreadyProcessed _ status => s!"proposal already processed: {status.name}"

/-! ## Changes of one proposal -/

/-- A proposal as it is stored: with an id, and with the moments of its creation
and its last change. -/
def stamped (p : Proposal) (freshId : String) (now : Instant) : Proposal :=
  { p with
    id := if p.id = "" then freshId else p.id
    createdAt := p.createdAt.earlier now
    updatedAt := now }

/-- The two decisions on a proposal. -/
inductive Decision
  | accept
  | ignore
deriving DecidableEq, Repr

/-- The status after a decision. -/
def Decision.status : Decision → Status
  | .accept => .accepted
  | .ignore => .ignored

/-- A proposal after a decision. -/
def decided (p : Proposal) (d : Decision) (now : Instant) : Proposal :=
  { p with status := d.status, updatedAt := now }

/-- Parameters with a given value in the one of its name, if there is one. -/
def Param.enter (parameters : Table Param) (given : String × String) : Table Param :=
  match parameters.get? given.1 with
  | some p => parameters.insert given.1 { p with value := given.2 }
  | none => parameters

/-- A proposal handed in again: the values that are given are entered into its parameters
one after the other. -/
def resubmitted (p : Proposal) (params : Parameters) (now : Instant) : Proposal :=
  { p with
    parameters := params.entries.foldl Param.enter p.parameters
    status := .modified
    updatedAt := now }

namespace Store

/-! ## Views -/

/-- A store without proposals. -/
def ofCapacity (capacity : Nat) : Store := ⟨∅, .ofCapacity capacity⟩

/-- A store without proposals, of the usual capacity. -/
def empty : Store := ofCapacity Channel.usualCapacity

/-- The proposal of an id. -/
def get? (s : Store) (id : String) : Option Proposal := s.proposals.get? id

/-- All proposals, in the order of their ids. -/
def all (s : Store) : List Proposal := s.proposals.values

/-- The proposals that wait for a decision. -/
def pending (s : Store) : List Proposal := s.all.filter isPending

/-! ## Operations -/

/-- The store with a proposal under its id. -/
def put (s : Store) (p : Proposal) : Store := { s with proposals := s.proposals.insert p.id p }

/-- Reports that the word of a new proposal was not passed on. -/
def reportSkipped (id : String) : Channel.Refusal → Act Store Unit
  | .full => Act.report (.notificationSkippedFull id)
  | .closed => Act.report (.notificationSkippedClosed id)

/-- Stores a proposal, in the place of one with the same id, and passes the word
on. The result is its id. -/
def create (proposal : Proposal) (freshId : String) (now : Instant) : Act Store String := do
  let p := proposal.stamped freshId now
  let before ← Act.look
  Act.change (·.put p)
  if let some old := before.get? p.id then
    Act.report (.proposalReplaced p.id old.status.name old.title)
  Act.report (.proposalCreated p.id p.kind p.title)
  Act.change fun s => { s with channel := s.channel.offer p }
  if let some refusal := before.channel.refusal? then
    reportSkipped p.id refusal
  return p.id

/-- Accepts or ignores a pending proposal. -/
def decide (id : String) (d : Decision) (now : Instant) : Act Store (Except Failure Unit) := do
  match (← Act.look).get? id with
  | none => return .error (.notFound id)
  | some p =>
    if p.isPending then
      Act.change (fun s => { s with proposals := s.proposals.insert id (p.decided d now) })
      Act.report (.proposalDecided p.id p.kind p.title d.status.name)
      return .ok ()
    else return .error (.alreadyProcessed id p.status)

/-- Hands a proposal in again with other values of its parameters. -/
def resubmit (id : String) (params : Parameters) (now : Instant) :
    Act Store (Except Failure Proposal) := do
  match (← Act.look).get? id with
  | none => return .error (.notFound id)
  | some p =>
    let q := p.resubmitted params now
    Act.change (fun s => { s with proposals := s.proposals.insert id q })
    Act.report (.proposalResubmitted p.id p.kind p.title)
    return .ok q

/-- Drops a proposal. The result says whether it was there. -/
def delete (id : String) : Act Store Bool := do
  let there := ((← Act.look).get? id).isSome
  Act.change fun s => { s with proposals := s.proposals.erase id }
  return there

/-- Hands out the reader's end of the channel. The result says whether it was
still there. -/
def takeNotifications : Act Store Bool := do
  let (there, channel) := (← Act.look).channel.take
  Act.change fun s => { s with channel }
  return there

/-- The oldest proposal of which word waits. -/
def receive : Act Store (Option Proposal) := do
  let (p, channel) := (← Act.look).channel.receive
  Act.change fun s => { s with channel }
  return p

/-- Lets the reader of the channel go. -/
def closeNotifications : Act Store Unit :=
  Act.change fun s => { s with channel := s.channel.close }

end Store

end TriageDesk.Proposal
