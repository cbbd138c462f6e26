/-
TriageDesk.Desk — what the tools of the desk work on.

The desk keeps the proposals, knows whether its ways to other servers are
open, and draws moments, fresh names and the outcomes of requests from a
supply. The supply is a sequence for each of the three: whatever the clock,
the source of names and the network do, some supply describes it.

Follows what the tools share: the `ProposalStore`, the `OutboundClient` of each
of the two that send, `get` and `close` of which are the flags of the desk, and
the clock and the names that `create` draws.
-/
import TriageDesk.Http.Exchange
import TriageDesk.Proposal.Store

namespace TriageDesk

open Time

/-- What the desk draws from outside, and how much of it has been drawn. -/
structure Supply where
  /-- What the clock shows when it is read for the n-th time. -/
  instant : Nat → Instant
  /-- The n-th fresh name. -/
  name : Nat → String
  /-- What comes of the n-th request. -/
  outcome : Nat → Http.Request → Http.Outcome
  instantsDrawn : Nat
  namesDrawn : Nat

/-- What the tools of the desk work on. -/
structure Desk where
  store : Proposal.Store
  /-- Whether queries are still sent. -/
  queriesOpen : Bool
  /-- Whether disposals are still sent. -/
  disposalsOpen : Bool
  supply : Supply
  /-- The requests that have been handed over for sending, the oldest first. -/
  requests : List Http.Request

namespace Desk

/-- A desk at which nothing has been done. -/
def fresh (supply : Supply) : Desk := ⟨.empty, true, true, supply, []⟩

/-- Reads the clock. -/
def now : Act Desk Instant := do
  let n := (← Act.look).supply.instantsDrawn
  Act.change fun d => { d with supply := { d.supply with instantsDrawn := n + 1 } }
  return (← Act.look).supply.instant n

/-- Draws a fresh name. -/
def freshName : Act Desk String := do
  let n := (← Act.look).supply.namesDrawn
  Act.change fun d => { d with supply := { d.supply with namesDrawn := n + 1 } }
  return (← Act.look).supply.name n

/-- Work on the proposals. -/
def onStore {α : Type} (act : Act Proposal.Store α) : Act Desk α :=
  Act.within (·.store) (fun store d => { d with store }) act

/-- Stores a proposal. -/
def createProposal (p : Proposal) : Act Desk String := do
  let name ← freshName
  let moment ← now
  onStore (Proposal.Store.create p name moment)

/-- Accepts or ignores a proposal. -/
def decideProposal (id : String) (d : Proposal.Decision) :
    Act Desk (Except Proposal.Store.Failure Unit) := do
  let moment ← now
  onStore (Proposal.Store.decide id d moment)

/-- Hands a proposal in again. -/
def resubmitProposal (id : String) (params : Parameters) :
    Act Desk (Except Proposal.Store.Failure Proposal) := do
  let moment ← now
  onStore (Proposal.Store.resubmit id params moment)

/-- Hands a request over for sending: the status and the text of the answer. -/
def send (request : Http.Request) : Act Desk (Except Http.Failure (Nat × String)) := do
  let d ← Act.look
  Act.change fun d => { d with requests := d.requests ++ [request] }
  return do
    let url ← request.destination
    (d.supply.outcome d.requests.length request).read url

/-- Closes the ways to other servers for good. -/
def close : Act Desk Unit :=
  Act.change fun d => { d with queriesOpen := false, disposalsOpen := false }

end Desk

end TriageDesk
