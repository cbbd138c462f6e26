/-
TriageDesk.Web.Route — what an address of the desk's pages stands for.

An address is read as it was sent, segment by segment; only the id of a
proposal may be written with percent signs. Each route has its methods.

Follows `router`.
-/
import TriageDesk.Http.Percent
import TriageDesk.Proposal.Store
import TriageDesk.Text.Search

namespace TriageDesk.Web

open Text

/-- What an address stands for. The id of a proposal is as it was sent. -/
inductive Route
  | health
  | proposals
  | proposal (id : List Char)
  | decision (id : List Char) (d : Proposal.Decision)
  | resubmission (id : List Char)
  | activities
  | events
deriving DecidableEq, Repr

namespace Route

/-- What the segments after the first stand for. -/
def ofSegments : List String → Option Route
  | ["api", "health"] => some .health
  | ["api", "proposals"] => some .proposals
  | ["api", "activities"] => some .activities
  | ["api", "events"] => some .events
  | ["api", "proposal", id] => if id = "" then none else some (.proposal id.toList)
  | ["api", "proposal", id, "accept"] => some (.decision id.toList .accept)
  | ["api", "proposal", id, "ignore"] => some (.decision id.toList .ignore)
  | ["api", "proposal", id, "resubmit"] => some (.resubmission id.toList)
  | _ => none

/-- What a path stands for. -/
def ofPath (path : List Char) : Option Route :=
  match splitOn '/' path with
  | [] :: segments => ofSegments (segments.map String.ofList)
  | _ => none

/-- The methods of a route. -/
def methods : Route → List String
  | .proposal _ => ["GET", "HEAD", "DELETE"]
  | .decision .. | .resubmission _ => ["POST"]
  | _ => ["GET", "HEAD"]

end Route

/-- The id that a segment stands for, if it is text. -/
def idOf? (segment : List Char) : Option String := decode? (Http.percentDecode segment)

end TriageDesk.Web
