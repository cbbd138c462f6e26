/-
TriageDesk.Http.Form — pairs of names and values as one line of text.

Pairs are joined by `&`, a name and its value by `=`. Letters, digits and
`*-._` stand for themselves, a blank is written as `+`, and every other
octet with a percent sign.

Follows the form in which `post_sql` puts its fields.
-/
import TriageDesk.Http.Percent
import TriageDesk.Text.Search

namespace TriageDesk.Http.Form

open Text

/-! ## Writing -/

/-- An octet in a form. -/
def writeOctet (b : UInt8) : List Char :=
  let c := Char.ofNat b.toNat
  if b.toNat < 0x80 ∧ (c.isAlphanum ∨ "*-._".toList.contains c) then [c]
  else if c = ' ' then ['+']
  else percentOctet b

/-- A name or a value in a form. -/
def writePart (s : String) : List Char := (octetsOf s).flatMap writeOctet

/-- Pairs of names and values as a form. -/
def write (pairs : List (String × String)) : String :=
  String.ofList (join ['&'] (pairs.map fun (name, value) => writePart name ++ '=' :: writePart value))

/-! ## Reading -/

/-- A name or a value of a form; what is no text is replaced. -/
def readPart (cs : List Char) : String :=
  decodeLossy (percentDecode (cs.map fun c => if c = '+' then ' ' else c))

/-- A pair of a form; without `=` the value is empty. -/
def readPair (cs : List Char) : String × String :=
  match splitOnce '=' cs with
  | some (name, value) => (readPart name, readPart value)
  | none => (readPart cs, "")

/-- The pairs of a form; empty pieces are none. -/
def read (cs : List Char) : List (String × String) :=
  ((splitOn '&' cs).filter (· ≠ [])).map readPair

end TriageDesk.Http.Form
