/-
TriageDesk.Http.Url — addresses of the web, read and written.

Reading follows the rules by which browsers read an address: blanks and
control characters at the ends fall away, tabs and line breaks anywhere; in
addresses of the web a backslash counts as a slash; dots as path segments
are resolved; and characters that may not stand in a part of an address are
written with percent signs. A text that these rules refuse is no address.

The authority of an address, its user, host and port, ends at the first
slash, question mark or number sign, so that nothing after it can change the
host.
-/
import TriageDesk.Http.Percent
import TriageDesk.Http.Punycode
import TriageDesk.Text.Search

namespace TriageDesk.Http

open Text

/-- An address of the web. -/
structure Url where
  scheme : String
  user : String
  password : String
  host : Option String
  /-- None when it is the usual one of the scheme. -/
  port : Option Nat
  path : String
  query : Option String
  fragment : Option String
deriving DecidableEq, Repr, Inhabited

namespace Url

/-! ## Schemes -/

/-- The usual ports of the schemes whose addresses always have a host. -/
def usualPorts : List (String × Nat) :=
  [("http", 80), ("https", 443), ("ws", 80), ("wss", 443), ("ftp", 21)]

/-- Whether the addresses of a scheme follow the rules of the web. -/
def isWebScheme (scheme : String) : Bool := (usualPorts.lookup scheme).isSome

/-- Whether a character may stand in a scheme, behind its first letter. -/
def isSchemeChar (c : Char) : Bool := c.isAlphanum || c = '+' || c = '-' || c = '.'

/-- The scheme of an address, and the text behind its colon. -/
def scheme? (cs : List Char) : Option (String × List Char) :=
  match cs with
  | [] => none
  | c :: _ =>
    match cs.dropWhile isSchemeChar with
    | ':' :: rest =>
      if c.isAlpha then some (asciiLower (String.ofList (cs.takeWhile isSchemeChar)), rest) else none
    | _ => none

/-! ## Hosts -/

/-- Whether a character may not stand in the name of a host. -/
def isForbiddenInDomain (c : Char) : Bool :=
  isControlOrBeyond c || " #/:<>?@[\\]^|%".toList.contains c

/-- The number of a part of a numeric host: decimal, octal after `0`, or
hexadecimal after `0x`. -/
def numberPart? (part : List Char) : Option Nat :=
  let digits (base : Nat) (cs : List Char) : Option Nat :=
    cs.foldlM (fun n c => do
      let d ← hexValue? c
      if d < base then some (n * base + d) else none) 0
  match part with
  | [] => none
  | '0' :: 'x' :: rest | '0' :: 'X' :: rest => digits 16 rest
  | '0' :: rest => digits 8 rest
  | part => digits 10 part

/-- The parts of a host name, an empty one at the end left out. -/
def hostParts (host : List Char) : List (List Char) :=
  let parts := splitOn '.' host
  if parts.length > 1 ∧ parts.getLast? = some [] then parts.dropLast else parts

/-- Whether a host has to be read as a number. -/
def endsInNumber (host : List Char) : Bool :=
  match (hostParts host).getLast? with
  | none => false
  | some part => part ≠ [] && (part.all Char.isDigit || (numberPart? part).isSome)

/-- The 32 bits of a numeric host: the last part fills what the others leave. -/
def addressOfParts? (numbers : List Nat) : Option Nat := do
  let last ← numbers.getLast?
  let front := numbers.dropLast
  if 3 < front.length ∨ front.any (255 < ·) ∨ Nat.pow 256 (4 - front.length) ≤ last then none
  else some (front.zipIdx.foldl (fun n (part, i) => n + part * Nat.pow 256 (3 - i)) last)

/-- A numeric host in four decimal parts. -/
def numericHost? (host : List Char) : Option String := do
  let numbers ← (hostParts host).mapM numberPart?
  let n ← addressOfParts? numbers
  return s!"{n / 256 / 256 / 256}.{n / 256 / 256 % 256}.{n / 256 % 256}.{n % 256}"

/-- The 16-bit pieces of one side of a host in brackets; its end may be numeric. -/
def bracketPieces? (side : List Char) : Option (List Nat) :=
  if side = [] then some []
  else
    let parts := splitOn ':' side
    let piece (part : List Char) : Option Nat :=
      if part = [] ∨ 4 < part.length then none
      else part.foldlM (fun n c => (hexValue? c).map (n * 16 + ·)) 0
    match parts.getLast? with
    | none => none
    | some last =>
      if last.contains '.' then do
        let front ← parts.dropLast.mapM piece
        let numbers ← (splitOn '.' last).mapM fun p =>
          if p ≠ [] ∧ p.all Char.isDigit ∧ (p.length = 1 ∨ p.head? ≠ some '0') then numberPart? p
          else none
        match numbers with
        | [a, b, c, d] =>
          if a < 256 ∧ b < 256 ∧ c < 256 ∧ d < 256 then return front ++ [a * 256 + b, c * 256 + d]
          else none
        | _ => none
      else parts.mapM piece

/-- The eight pieces of a host in brackets. -/
def bracketAddress? (inside : List Char) : Option (List Nat) :=
  match cutAtFirst [':', ':'] inside with
  | none => do
    let pieces ← bracketPieces? inside
    if pieces.length = 8 then some pieces else none
  | some (left, right) => do
    if (cutAtFirst [':', ':'] right).isSome then none
    else
      let a ← bracketPieces? left
      let b ← bracketPieces? right
      if a.length + b.length ≤ 7 then
        some (a ++ List.replicate (8 - a.length - b.length) 0 ++ b)
      else none

/-- The length of the run of zeros at the front. -/
def zeroRun (pieces : List Nat) : Nat := (pieces.takeWhile (· = 0)).length

/-- Where the first of the longest runs of at least two zeros starts, and how long
it is. -/
def longestZeroRun (pieces : List Nat) : Option (Nat × Nat) :=
  let runs := (List.range 8).map fun i => (i, zeroRun (pieces.drop i))
  let longest := runs.foldl (fun best run => if best.2 < run.2 then run else best) (0, 0)
  if 2 ≤ longest.2 then some longest else none

/-- A host in brackets, its longest run of zeros left out. -/
def writeBracketAddress (pieces : List Nat) : String :=
  let part (ps : List Nat) : List Char := join [':'] (ps.map (Nat.toDigits 16))
  match longestZeroRun pieces with
  | none => String.ofList ('[' :: part pieces ++ [']'])
  | some (start, length) =>
    String.ofList
      ('[' :: part (pieces.take start) ++ ':' :: ':' :: part (pieces.drop (start + length)) ++ [']'])

/-- The host of an address of the web. -/
def webHost? (cs : List Char) : Option String :=
  match cs with
  | [] => none
  | '[' :: rest =>
    match rest.getLast? with
    | some ']' => (bracketAddress? rest.dropLast).map writeBracketAddress
    | _ => none
  | cs => do
    let text ← decode? (percentDecode cs)
    let domain ← Punycode.encode? text.toList
    if domain = [] ∨ domain.any isForbiddenInDomain then none
    else if endsInNumber domain then numericHost? domain
    else some (String.ofList domain)

/-- The host of any other address. -/
def otherHost? (cs : List Char) : Option String :=
  if cs.any fun c => isForbiddenInDomain c && c.toNat < 0x80 && c ≠ '%' then none
  else some (String.ofList (percentEncode (fun _ => false) cs))

/-! ## Authorities -/

/-- Whether a character ends the authority. -/
def endsAuthority (web : Bool) (c : Char) : Bool :=
  c = '/' || c = '?' || c = '#' || (web && c = '\\')

/-- A host and its port cut at the first colon that stands outside brackets. -/
def splitPortAt : (inside : Bool) → List Char → List Char × Option (List Char)
  | _, [] => ([], none)
  | inside, c :: rest =>
    if c = ':' ∧ !inside then ([], some rest)
    else
      let (host, port) := splitPortAt (c = '[' || (inside && c ≠ ']')) rest
      (c :: host, port)

/-- A host and its port. -/
def splitPort (cs : List Char) : List Char × Option (List Char) := splitPortAt false cs

/-- The port of an address; none if it is missing or the usual one. -/
def port? (scheme : String) : Option (List Char) → Option (Option Nat)
  | none => some none
  | some ds =>
    if ds.all Char.isDigit then
      let n := ds.foldl (fun n c => n * 10 + (c.toNat - 48)) 0
      if 65535 < n then none
      else some (if ds = [] ∨ usualPorts.lookup scheme = some n then none else some n)
    else none

/-- Whether a character is encoded in the user and the password. -/
def encodedInUser (c : Char) : Bool := " \"#<>?`\x7b\x7d/:;=@[\\]^|".toList.contains c

/-- The user, the password and what stands behind the last `@`. -/
def splitUser (cs : List Char) : String × String × List Char :=
  match throughLast '@' cs with
  | [] => ("", "", cs)
  | front =>
    let info := front.dropLast
    let (user, password) := (splitOnce ':' info).getD (info, [])
    (String.ofList (percentEncode encodedInUser user),
      String.ofList (percentEncode encodedInUser password), cs.drop front.length)

/-! ## Paths, queries and fragments -/

/-- Whether a character is encoded in a path. -/
def encodedInPath (c : Char) : Bool := " \"#<>?`\x7b\x7d".toList.contains c

/-- Whether a character is encoded in the query of an address. -/
def encodedInQuery (web : Bool) (c : Char) : Bool :=
  " \"#<>".toList.contains c || (web && c = '\'')

/-- Whether a character is encoded in a fragment. -/
def encodedInFragment (c : Char) : Bool := " \"<>`".toList.contains c

/-- The spellings of the segment that stands for the present place. -/
def isHere (segment : List Char) : Bool :=
  [".", "%2e"].contains (asciiLower (String.ofList segment))

/-- The spellings of the segment that goes one place up. -/
def isUp (segment : List Char) : Bool :=
  ["..", ".%2e", "%2e.", "%2e%2e"].contains (asciiLower (String.ofList segment))

/-- The segments of a path with dots resolved; `last` says of a segment that none
follows it, and `seen` holds the resolved ones backwards. -/
def resolveDots : (seen : List (List Char)) → List (List Char) → List (List Char)
  | seen, [] => seen.reverse
  | seen, segment :: rest =>
    let seen := if isUp segment then seen.tail else if isHere segment then seen else segment :: seen
    let seen := if rest = [] ∧ (isUp segment ∨ isHere segment) then [] :: seen else seen
    resolveDots seen rest

/-- A path that starts with a slash, or an empty one. -/
def normalPath (web : Bool) (cs : List Char) : String :=
  let slashed := cs.map fun c => if web ∧ c = '\\' then '/' else c
  let segments := (splitOn '/' slashed.tail).map (percentEncode encodedInPath)
  if cs = [] then (if web then "/" else "")
  else String.ofList ('/' :: join ['/'] (resolveDots [] segments))

/-- The path, the query and the fragment behind an authority. -/
def cutTail (cs : List Char) : List Char × Option (List Char) × Option (List Char) :=
  let (front, fragment) :=
    match splitOnce '#' cs with
    | some (front, fragment) => (front, some fragment)
    | none => (cs, none)
  match splitOnce '?' front with
  | some (path, query) => (path, some query, fragment)
  | none => (front, none, fragment)

/-! ## Whole addresses -/

/-- The text that is read: without blanks and control characters at the ends, and
without tabs and line breaks. -/
def cleaned (s : String) : List Char :=
  let outside (c : Char) : Bool := c.toNat ≤ 0x20
  let inner := ((s.toList.dropWhile outside).reverse.dropWhile outside).reverse
  inner.filter fun c => !(c = '\t' || c = '\n' || c = '\r')

/-- The address whose authority and tail are given. -/
def withAuthority? (scheme : String) (web : Bool) (cs : List Char) : Option Url := do
  let authority := cs.takeWhile fun c => !endsAuthority web c
  let tail := cs.dropWhile fun c => !endsAuthority web c
  let (user, password, place) := splitUser authority
  let (hostText, portText) := splitPort place
  let host ← if web then webHost? hostText else otherHost? hostText
  let port ← port? scheme portText
  let (path, query, fragment) := cutTail tail
  return { scheme, user, password, host := some host, port
           path := normalPath web path
           query := query.map fun q => String.ofList (percentEncode (encodedInQuery web) q)
           fragment := fragment.map fun f => String.ofList (percentEncode encodedInFragment f) }

/-- The address without an authority. -/
def withoutAuthority (scheme : String) (cs : List Char) : Url :=
  let (path, query, fragment) := cutTail cs
  { scheme, user := "", password := "", host := none, port := none
    path :=
      if startsWith ['/'] path then normalPath false path
      else String.ofList (percentEncode (fun _ => false) path)
    query := query.map fun q => String.ofList (percentEncode (encodedInQuery false) q)
    fragment := fragment.map fun f => String.ofList (percentEncode encodedInFragment f) }

/-- Reads an address. -/
def parse? (s : String) : Option Url := do
  let (scheme, rest) ← scheme? (cleaned s)
  if isWebScheme scheme then
    withAuthority? scheme true (rest.dropWhile fun c => c = '/' || c = '\\')
  else
    match rest with
    | '/' :: '/' :: rest => withAuthority? scheme false rest
    | rest => some (withoutAuthority scheme rest)

/-! ## Writing -/

/-- The path and the query, as a request names them. -/
def target (u : Url) : String := u.path ++ (u.query.map ("?" ++ ·)).getD ""

/-- The scheme, the host and the port. -/
def origin (u : Url) : String × Option String × Option Nat := (u.scheme, u.host, u.port)

/-- An address as text, without its user and password. -/
def write (u : Url) : String :=
  let authority :=
    match u.host with
    | none => ""
    | some host => "//" ++ host ++ (u.port.map fun n => s!":{n}").getD ""
  u.scheme ++ ":" ++ authority ++ u.target ++ (u.fragment.map ("#" ++ ·)).getD ""

end Url

end TriageDesk.Http
