/-
TriageDesk.Time.Reader — reading moments in a relaxed RFC 3339 format.

Between date and time stands a `T` or a blank; numbers may have fewer
digits than the format asks for, white space may stand around the parts,
and the zone is `Z`, `UTC` or an offset in hours and minutes.
-/
import TriageDesk.Time.Instant
import TriageDesk.Text.Blank
import TriageDesk.Text.Search

namespace TriageDesk.Time

open Text

/-- Why a text is no moment. -/
inductive Problem
  | outOfRange
  | impossible
  | invalid
  | tooShort
  | tooLong
deriving DecidableEq, Repr

/-- A problem in words. -/
def Problem.message : Problem → String
  | .outOfRange => "input is out of range"
  | .impossible => "no possible date and time matching input"
  | .invalid => "input contains invalid characters"
  | .tooShort => "premature end of input"
  | .tooLong => "trailing input"

/-! ## Pieces -/

/-- Greatest value of a number while it is read. -/
def maxNumber : Nat := Nat.pow 2 63 - 1

/-- Takes up to `count` digits onto a value: the value and what remains. -/
def takeNumber : (count : Nat) → Nat → List Char → Except Problem (Nat × List Char)
  | 0, n, s => .ok (n, s)
  | _ + 1, n, [] => .ok (n, [])
  | count + 1, n, c :: rest =>
    if c.isDigit then
      let n := n * 10 + (c.toNat - '0'.toNat)
      if maxNumber < n then .error .outOfRange else takeNumber count n rest
    else .ok (n, c :: rest)

/-- A number of one digit to `count`. -/
def number (count : Nat) (s : List Char) : Except Problem (Nat × List Char) :=
  match s with
  | [] => .error .tooShort
  | c :: _ => if c.isDigit then takeNumber count 0 s else .error .invalid

/-- A number of up to two digits within bounds, white space in front aside. -/
def field (low high : Nat) (s : List Char) : Except Problem (Nat × List Char) := do
  let (n, rest) ← number 2 (trimLeft s)
  if low ≤ n ∧ n ≤ high then return (n, rest) else throw .outOfRange

/-- A mark, white space in front aside. -/
def mark (c : Char) (s : List Char) : Except Problem (List Char) :=
  match trimLeft s with
  | [] => .error .tooShort
  | d :: rest => if d = c then .ok rest else .error .invalid

/-- A year: up to four digits, or a sign and any number of them. -/
def year (s : List Char) : Except Problem (Int × List Char) := do
  let (y, rest) ←
    match trimLeft s with
    | '-' :: rest => do
      let (n, rest) ← number rest.length rest
      pure (-(n : Int), rest)
    | '+' :: rest => do
      let (n, rest) ← number rest.length rest
      pure ((n : Int), rest)
    | s => do
      let (n, rest) ← number 4 s
      pure ((n : Int), rest)
  if -(Nat.pow 2 31) ≤ y ∧ y < Nat.pow 2 31 then return (y, rest) else throw .outOfRange

/-- The nanoseconds of a fraction, if there is one; digits after the ninth are
passed over. -/
def fraction (s : List Char) : Except Problem (Nat × List Char) :=
  match s with
  | '.' :: rest => do
    let (n, tail) ← number 9 rest
    let taken := rest.length - tail.length
    return (n * Nat.pow 10 (9 - taken), tail.dropWhile Char.isDigit)
  | s => .ok (0, s)

/-- Two digits. -/
def twoDigits : List Char → Except Problem (Nat × Nat × List Char)
  | a :: b :: rest =>
    if a.isDigit ∧ b.isDigit then .ok (a.toNat - '0'.toNat, b.toNat - '0'.toNat, rest)
    else .error .invalid
  | [] => .error .tooShort
  | [a] => if a.utf8Size < 2 then .error .tooShort else .error .invalid

/-- An offset from universal time in seconds. -/
def offset (s : List Char) : Except Problem (Int × List Char) := do
  let (negative, s) ←
    match s with
    | [] => throw .tooShort
    | '+' :: rest => pure (false, rest)
    | '-' :: rest => pure (true, rest)
    | '\u2212' :: rest => pure (true, rest)
    | _ => throw .invalid
  let (h1, h2, s) ← twoDigits s
  let s := s.dropWhile fun c => c = ':' || isBlank c
  let (m1, m2, s) ← twoDigits s
  if 6 ≤ m1 then throw .outOfRange
  let seconds : Int := ((h1 * 10 + h2) * 3600 + (m1 * 10 + m2) * 60 : Nat)
  return (if negative then -seconds else seconds, s)

/-- The zone, as an offset in seconds. -/
def zone (s : List Char) : Except Problem (Int × List Char) :=
  match s with
  | 'Z' :: rest => .ok (0, rest)
  | 'z' :: rest => .ok (0, rest)
  | a :: b :: c :: rest =>
    if [a, b, c].map Char.toUpper = ['U', 'T', 'C'] then .ok (0, rest) else offset s
  | s => offset s

/-! ## Whole texts -/

/-- Least and greatest year of a moment. -/
def yearBounds : Int × Int := (-262143, 262142)

/-- Whether a year is within the bounds. -/
def yearInBounds (y : Int) : Bool := decide (yearBounds.1 ≤ y) && decide (y ≤ yearBounds.2)

/-- Reads a moment. -/
def Instant.read (s : String) : Except Problem Instant := do
  let (y, s) ← year s.toList
  let s ← mark '-' s
  let (month, s) ← field 1 12 s
  let s ← mark '-' s
  let (day, s) ← field 1 31 s
  let s ←
    match s with
    | [] => throw .tooShort
    | c :: rest => if c = 'T' ∨ c = 't' ∨ c = ' ' then pure rest else throw .invalid
  let (hour, s) ← field 0 23 s
  let s ← mark ':' s
  let (minute, s) ← field 0 59 s
  let s ← mark ':' s
  let (second, s) ← field 0 60 s
  let (nanos, s) ← fraction s
  let (shift, s) ← zone (trimLeft s)
  if trimLeft s ≠ [] then throw .tooLong
  if !yearInBounds y ∨ daysInMonth y month < day then throw .outOfRange
  if shift ≤ -86400 ∨ 86400 ≤ shift then throw .outOfRange
  let local_ := ({ year := y, month, day, hour, minute, second, nanos } : Fields).instant
  let t : Instant := { local_ with seconds := local_.seconds - shift }
  if yearInBounds t.fields.year then return t else throw .impossible

end TriageDesk.Time
