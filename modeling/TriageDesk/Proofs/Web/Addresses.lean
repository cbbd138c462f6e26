/-
TriageDesk.Proofs.Web.Addresses — every proposal has an address.

With all its octets written with percent signs an id is a segment of a path, is
read back as it was (`idOf?_segmentOf`), and does not interfere with the
segments around it. So everything that can be asked about a proposal can be
asked by a request, whatever the id and the body (`wish?_request`).
-/
import TriageDesk.Proofs.Http.Form
import TriageDesk.Proofs.Web.Requests

namespace TriageDesk

open Text

/-! ## Segments -/

namespace Web

/-- An id as a segment of a path. -/
def segmentOf (id : String) : List Char := (octetsOf id).flatMap Http.percentOctet

theorem idOf?_segmentOf (id : String) : idOf? (segmentOf id) = some id := by
  rw [idOf?, segmentOf, Http.percentDecode_octets, decode?_octetsOf]

theorem segmentOf_plain (id : String) : '/' ∉ segmentOf id := by
  intro slash
  obtain ⟨b, _, among⟩ := List.mem_flatMap.mp slash
  have octet := b.toNat_lt
  simp only [Http.percentOctet, List.mem_cons, List.not_mem_nil, or_false] at among
  rcases among with same | same | same
  · exact absurd same (by decide)
  · exact Http.hexDigit_notMem (b.toNat / 16) (by omega) (by rw [← same]; decide)
  · exact Http.hexDigit_notMem (b.toNat % 16) (by omega) (by rw [← same]; decide)

theorem segmentOf_ne_nil {id : String} (named : id ≠ "") : segmentOf id ≠ [] := by
  intro nothing
  have none : idOf? (segmentOf id) = some "" := by rw [nothing]; decide +kernel
  rw [idOf?_segmentOf] at none
  exact named (Option.some.inj none)

/-- The word for a decision in a path. -/
def wordFor : Proposal.Decision → String
  | .accept => "accept"
  | .ignore => "ignore"

/-- The request for a wish. -/
def Wish.request (body : List UInt8) : Wish → Request
  | .look id => ⟨"GET", "/api/proposal/".toList ++ segmentOf id, none, body⟩
  | .drop id => ⟨"DELETE", "/api/proposal/".toList ++ segmentOf id, none, body⟩
  | .decide id d =>
    ⟨"POST", "/api/proposal/".toList ++ (segmentOf id ++ '/' :: (wordFor d).toList), none, body⟩
  | .resubmit id =>
    ⟨"POST", "/api/proposal/".toList ++ (segmentOf id ++ '/' :: "resubmit".toList), none, body⟩

theorem ofPath_proposal (rest : List Char) :
    Route.ofPath ("/api/proposal/".toList ++ rest) =
      Route.ofSegments ("api" :: "proposal" :: (splitOn '/' rest).map String.ofList) := rfl

theorem ofPath_itself {id : String} (named : id ≠ "") :
    Route.ofPath ("/api/proposal/".toList ++ segmentOf id) = some (.proposal (segmentOf id)) := by
  have named' : String.ofList (segmentOf id) ≠ "" := fun nothing =>
    segmentOf_ne_nil named (by simpa using congrArg String.toList nothing)
  rw [ofPath_proposal, splitOn_plain (segmentOf_plain id)]
  show (if String.ofList (segmentOf id) = "" then none
    else some (Route.proposal (String.ofList (segmentOf id)).toList)) = _
  rw [if_neg named', String.toList_ofList]

theorem ofPath_below (id : String) {word : String} (plain : '/' ∉ word.toList) :
    Route.ofPath ("/api/proposal/".toList ++ (segmentOf id ++ '/' :: word.toList)) =
      Route.ofSegments ["api", "proposal", String.ofList (segmentOf id), word] := by
  have whole : String.ofList word.toList = word := String.ofList_toList
  rw [ofPath_proposal, splitOn_piece (segmentOf_plain id), splitOn_plain plain, List.map_cons,
    List.map_cons, whole, List.map_nil]

theorem ofPath_decision (id : String) (d : Proposal.Decision) :
    Route.ofPath ("/api/proposal/".toList ++ (segmentOf id ++ '/' :: (wordFor d).toList)) =
      some (.decision (segmentOf id) d) := by
  have itself : (String.ofList (segmentOf id)).toList = segmentOf id := String.toList_ofList
  cases d with
  | accept =>
    rw [wordFor, ofPath_below id (by decide)]
    exact congrArg (fun s => some (Route.decision s .accept)) itself
  | ignore =>
    rw [wordFor, ofPath_below id (by decide)]
    exact congrArg (fun s => some (Route.decision s .ignore)) itself

theorem ofPath_resubmission (id : String) :
    Route.ofPath ("/api/proposal/".toList ++ (segmentOf id ++ '/' :: "resubmit".toList)) =
      some (.resubmission (segmentOf id)) := by
  rw [ofPath_below id (by decide)]
  exact congrArg (fun s => some (Route.resubmission s)) String.toList_ofList

/-- **Everything can be asked by a request**, whatever the id and the body. -/
theorem wish?_request (w : Wish) (named : w.id ≠ "") (body : List UInt8) :
    (w.request body).wish? = some w := by
  have read (id : String) := idOf?_segmentOf id
  cases w with
  | look id =>
    have route : Route.ofPath _ = some (.proposal (segmentOf id)) := ofPath_itself named
    simp only [Wish.request, Request.wish?, route, read, Option.map_some]
  | drop id =>
    have route : Route.ofPath _ = some (.proposal (segmentOf id)) := ofPath_itself named
    simp only [Wish.request, Request.wish?, route, read, Option.map_some]
  | decide id d => simp only [Wish.request, Request.wish?, ofPath_decision, read, Option.map_some]
  | resubmit id =>
    simp only [Wish.request, Request.wish?, ofPath_resubmission, read, Option.map_some]

end Web

end TriageDesk
