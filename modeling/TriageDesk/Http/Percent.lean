/-
TriageDesk.Http.Percent — octets written as a percent sign and two digits.

Encoding writes the octets of the characters that a set names, and of every
character beyond ASCII, with percent signs. Decoding undoes it and leaves a
percent sign alone that no two digits follow.
-/
import TriageDesk.Text.Digit
import TriageDesk.Text.Rune

namespace TriageDesk.Http

open Text

/-- An octet with a percent sign. -/
def percentOctet (b : UInt8) : List Char := ['%', hexDigit (b.toNat / 16), hexDigit (b.toNat % 16)]

/-- A character whose octets are written with percent signs. -/
def percentChar (c : Char) : List Char := (octetsOf (String.singleton c)).flatMap percentOctet

/-- Whether a character is a control character of ASCII or lies beyond ASCII. -/
def isControlOrBeyond (c : Char) : Bool := c.toNat < 0x20 || 0x7E < c.toNat

/-- A text in which the characters that are to be encoded are. -/
def percentEncode (encoded : Char → Bool) (cs : List Char) : List Char :=
  cs.flatMap fun c => if isControlOrBeyond c || encoded c then percentChar c else [c]

/-- The octets of a text, percent signs decoded. -/
def percentDecode : List Char → List UInt8
  | [] => []
  | c :: rest =>
    match c, rest with
    | '%', h :: l :: tail =>
      match hexValue? h, hexValue? l with
      | some x, some y => UInt8.ofNat (16 * x + y) :: percentDecode tail
      | _, _ => octetsOf "%" ++ percentDecode (h :: l :: tail)
    | c, rest => octetsOf (String.singleton c) ++ percentDecode rest
termination_by cs => cs.length

end TriageDesk.Http
