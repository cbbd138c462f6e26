/-
TriageDesk.Http.Exchange — requests to other servers and what comes of them.

A request is checked before it is sent: its address has to be one of the web
with a host, and the values of its headers may hold no control characters.
What is sent either reaches no server or is answered; an answer whose body
broke off cannot be read.

Follows what `post_sql`, `send` and `complete` leave to the library of
requests, between a request that is built and the text of its answer.
-/
import TriageDesk.Http.Url

namespace TriageDesk.Http

open Text

/-! ## Requests -/

/-- A request as it is put together. -/
structure Request where
  method : String
  url : String
  headers : List (String × String)
  body : Option String
deriving DecidableEq, Repr, Inhabited

/-- Why a request has no answer that can be read. -/
inductive Failure
  | malformed
  | unsupported (url : String)
  | unreachable (url : String)
  | brokenOff
deriving DecidableEq, Repr

/-- What the failure of a request was, in words. -/
def Failure.reason : Failure → String
  | .malformed => "builder error"
  | .unsupported url => s!"builder error for url ({url})"
  | .unreachable url => s!"error sending request for url ({url})"
  | .brokenOff => "error decoding response body"

/-- The failure of a request in words. -/
def Failure.message (f : Failure) : String :=
  match f with
  | .brokenOff => s!"failed to read response: {f.reason}"
  | f => s!"request failed: {f.reason}"

/-- Whether a text may be the value of a header. -/
def isHeaderValue (s : String) : Bool :=
  s.toList.all fun c => (0x20 ≤ c.toNat && c.toNat ≠ 0x7F) || c = '\t'

/-- The address to which a request goes, if it can be sent at all. -/
def Request.destination (r : Request) : Except Failure Url :=
  match Url.parse? r.url with
  | none => .error .malformed
  | some url =>
    if url.host.isNone then .error (.unsupported url.write)
    else if !r.headers.all fun h => isHeaderValue h.2 then .error .malformed
    else if url.scheme ≠ "http" ∧ url.scheme ≠ "https" then .error (.unsupported url.write)
    else .ok url

/-! ## Answers -/

/-- The answer of a server. -/
structure Response where
  status : Nat
  contentType : String
  octets : List UInt8
  /-- Whether the body came whole. -/
  complete : Bool
deriving Repr, Inhabited

/-- What comes of a request that was sent. -/
inductive Outcome
  | noServer
  | answer (r : Response)

/-- The characters that windows-1252 has in the place of the control characters
from 80 to 9F. -/
def westernExtras : List Nat :=
  [0x20AC, 0x81, 0x201A, 0x192, 0x201E, 0x2026, 0x2020, 0x2021, 0x2C6, 0x2030, 0x160, 0x2039,
   0x152, 0x8D, 0x17D, 0x8F, 0x90, 0x2018, 0x2019, 0x201C, 0x201D, 0x2022, 0x2013, 0x2014, 0x2DC,
   0x2122, 0x161, 0x203A, 0x153, 0x9D, 0x17E, 0x178]

/-- An octet as a character of windows-1252. -/
def westernChar (b : UInt8) : Char :=
  let n := b.toNat
  if 0x80 ≤ n ∧ n < 0xA0 then Char.ofNat (westernExtras.getD (n - 0x80) n) else Char.ofNat n

/-- The names of windows-1252. -/
def westernNames : List String :=
  ["windows-1252", "iso-8859-1", "latin1", "l1", "us-ascii", "ascii", "cp1252", "x-cp1252"]

/-- The value of the parameter `charset` of a content type. -/
def charset? (contentType : String) : Option String :=
  (splitOn ';' contentType.toList).tail.findSome? fun part =>
    match splitOnce '=' part with
    | some (name, value) =>
      let plain (cs : List Char) : String :=
        asciiLower (String.ofList (cs.filter fun c => c ≠ ' ' && c ≠ '"'))
      if plain name = "charset" then some (plain value) else none
    | none => none

/-- The body of an answer as text: in the character set that its type names,
which is UTF-8 if it names none, and without a mark of the order of octets. -/
def Response.text (r : Response) : String :=
  match r.octets with
  | 0xEF :: 0xBB :: 0xBF :: rest => decodeLossy rest
  | octets =>
    if (charset? r.contentType).any westernNames.contains then
      String.ofList (octets.map westernChar)
    else decodeLossy octets

/-- The status and the text of what came of a request. -/
def Outcome.read (url : Url) : Outcome → Except Failure (Nat × String)
  | .noServer => .error (.unreachable url.write)
  | .answer r => if r.complete then .ok (r.status, r.text) else .error .brokenOff

end TriageDesk.Http
