/-
TriageDesk.Web.Front — the desk with the feed of its pages.

When the front opens it takes the reader's end of the channel of new
proposals. From then on word of each new proposal can be forwarded to the
feed, where every client of the pages reads it.

Follows `AppState`: `start` is its `new`, and `forwardOne` one round of the
task that `new` spawns.
-/
import TriageDesk.Web.Answer
import TriageDesk.Web.Feed

namespace TriageDesk.Web

/-- The desk with the feed of its pages. -/
structure Front where
  desk : Desk
  feed : Feed
  /-- Whether word of new proposals goes to the feed. -/
  forwarding : Bool

namespace Front

/-- Work on the desk. -/
def onDesk {α : Type} (act : Act Desk α) : Act Front α :=
  Act.within (·.desk) (fun desk f => { f with desk }) act

/-- Opens the front, which forwards word of new proposals if nobody else does. -/
def start : Act Front Unit := do
  if ← onDesk (Desk.onStore Proposal.Store.takeNotifications) then
    Act.change fun f => { f with forwarding := true }
  else Act.report .notificationsTaken

/-- Forwards word of the oldest proposal that waits. -/
def forwardOne : Act Front Unit := do
  if (← Act.look).forwarding then
    if let some p ← onDesk (Desk.onStore Proposal.Store.receive) then
      Act.change fun f => { f with feed := f.feed.send p.toJson.compact }

/-- Forwards word of all proposals that wait. -/
def forward : Act Front Unit := do
  Act.each (fun _ => forwardOne) (← Act.look).desk.store.channel.waiting

/-- Adds a reader of the feed. -/
def subscribe (now : Nat) : Act Front Unit :=
  Act.change fun f => { f with feed := f.feed.subscribe now }

/-- Reads what there is for a reader of the feed. -/
def read (n now : Nat) : Act Front (List Feed.Frame) := do
  let (frames, feed) := (← Act.look).feed.read n now
  Act.change fun f => { f with feed }
  return frames

end Front

end TriageDesk.Web
