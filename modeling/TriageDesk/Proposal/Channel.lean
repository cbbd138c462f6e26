/-
TriageDesk.Proposal.Channel — word of new proposals, for one reader.

The channel holds so many proposals, first come first read. One that comes
while it is full is passed over, and so is every one that comes after the
reader has gone. The reader's end is handed out once.

Follows the bounded channel behind `ProposalNotifications`: `offer` is the
`try_send` of `create`, and `receive` is `try_recv`.
-/
import TriageDesk.Proposal.Basic

namespace TriageDesk.Proposal

/-- Proposals on their way to the one reader. -/
structure Channel where
  /-- How many proposals may wait. -/
  capacity : Nat
  /-- The proposals that wait, the oldest first. -/
  waiting : List Proposal
  /-- Whether the reader's end has been handed out. -/
  taken : Bool
  /-- Whether the reader has gone. -/
  closed : Bool

namespace Channel

/-- How many proposals may wait where nothing else is said. -/
def usualCapacity : Nat := 10

/-- An empty channel; it holds at least one proposal. -/
def ofCapacity (capacity : Nat) : Channel := ⟨max capacity 1, [], false, false⟩

/-- Why a proposal was passed over. -/
inductive Refusal
  | full
  | closed
deriving DecidableEq, Repr

/-- Why a proposal that comes now is passed over, if it is. -/
def refusal? (c : Channel) : Option Refusal :=
  if c.closed then some .closed
  else if c.capacity ≤ c.waiting.length then some .full
  else none

/-- The channel after a proposal has come. -/
def offer (c : Channel) (p : Proposal) : Channel :=
  match c.refusal? with
  | some _ => c
  | none => { c with waiting := c.waiting ++ [p] }

/-- The oldest proposal that waits, and the channel without it. -/
def receive (c : Channel) : Option Proposal × Channel :=
  match c.waiting with
  | [] => (none, c)
  | p :: rest => (some p, { c with waiting := rest })

/-- Hands out the reader's end: whether it was still there, and the channel. -/
def take (c : Channel) : Bool × Channel := (!c.taken, { c with taken := true })

/-- The channel after its reader has gone. -/
def close (c : Channel) : Channel := { c with waiting := [], closed := true }

end Channel

end TriageDesk.Proposal
