/-
TriageDesk.Web.Feed — one stream of events for many readers.

Everything that is sent is numbered, and each reader has a cursor: the number
of the event that it reads next. A reader can go back no further than the
latest 64 events; one that has fallen further behind goes on with the oldest
of these. Readers do not know of each other. A reader for whom there has been
nothing for a while gets a sign that the stream is still open.

Follows `api_events_sse`, the route `/api/events`, and the broadcast channel
from which it reads.
-/

namespace TriageDesk.Web

/-- A reader of the feed. -/
structure Feed.Reader where
  /-- The number of the event that it reads next. -/
  cursor : Nat
  /-- The time at which it last got anything, or began to read. -/
  quietSince : Nat
deriving DecidableEq, Repr

/-- A stream of events and its readers. -/
structure Feed where
  /-- All events that were sent, the oldest first. -/
  sent : List String
  readers : List Feed.Reader
deriving DecidableEq, Repr

namespace Feed

/-- How many of the latest events can still be read. -/
def window : Nat := 64

/-- After how many milliseconds without an event a sign is given. -/
def patience : Nat := 15000

/-- A feed without events and readers. -/
def empty : Feed := ⟨[], []⟩

/-- Sends an event. -/
def send (f : Feed) (event : String) : Feed := { f with sent := f.sent ++ [event] }

/-- Adds a reader, who gets what is sent from now on. -/
def subscribe (f : Feed) (now : Nat) : Feed :=
  { f with readers := f.readers ++ [⟨f.sent.length, now⟩] }

/-- The number of the event that a reader can read next. -/
def position (f : Feed) (r : Reader) : Nat := max r.cursor (f.sent.length - window)

/-- The next event for a reader, and the reader after it. -/
def next? (f : Feed) (r : Reader) : Option (String × Reader) :=
  (f.sent[f.position r]?).map fun event => (event, { r with cursor := f.position r + 1 })

/-- The next events for a reader, at most so many, and the reader after them. -/
def nexts (f : Feed) : Nat → Reader → List String × Reader
  | 0, r => ([], r)
  | n + 1, r =>
    match f.next? r with
    | none => ([], r)
    | some (event, r) =>
      let (events, r) := f.nexts n r
      (event :: events, r)

/-! ## Frames -/

/-- What a reader gets. -/
inductive Frame
  | proposal (data : String)
  | keepAlive
deriving DecidableEq, Repr

/-- The lines of a frame. -/
def Frame.lines : Frame → List String
  | .proposal data => ["event: proposal", s!"data: {data}"]
  | .keepAlive => [": keepalive"]

/-- What there is for a reader at a time, and the reader after it. -/
def ready (f : Feed) (r : Reader) (now : Nat) : List Frame × Reader :=
  match f.nexts f.sent.length r with
  | ([], r) =>
    if r.quietSince + patience ≤ now then ([.keepAlive], { r with quietSince := now }) else ([], r)
  | (events, r) => (events.map .proposal, { r with quietSince := now })

/-- What there is for the reader of a number at a time, and the feed after it. -/
def read (f : Feed) (n now : Nat) : List Frame × Feed :=
  match f.readers[n]? with
  | none => ([], f)
  | some r =>
    let (frames, r) := f.ready r now
    (frames, { f with readers := f.readers.set n r })

end Feed

end TriageDesk.Web
