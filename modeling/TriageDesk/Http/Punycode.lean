/-
TriageDesk.Http.Punycode — names of hosts beyond ASCII, written in ASCII.

The ASCII characters of a label stand first, then a dash, then the others in
the order of their code points: each as the number of places and code points
that lie between it and the one before, in digits of base 36. A digit ends its
number when it is below a threshold, and the thresholds follow the size of the
numbers so far.
-/
import TriageDesk.Text.Blank
import TriageDesk.Text.Graphic
import TriageDesk.Text.Lower
import TriageDesk.Text.Search

namespace TriageDesk.Http.Punycode

open Text

/-! ## Numbers -/

/-- A digit of base 36: letters, then decimal digits. -/
def digit (n : Nat) : Char := Char.ofNat (if n < 26 then 97 + n else 22 + n)

/-- The threshold of the digit at a place, where places count in steps of 36. -/
def threshold (bias place : Nat) : Nat := max 1 (min 26 (place - bias))

theorem one_le_threshold (bias place : Nat) : 1 ≤ threshold bias place := Nat.le_max_left ..

/-- The digits of a number from a place on. -/
def digits (bias place n : Nat) : List Char :=
  let t := threshold bias place
  if n < t then [digit n]
  else digit (t + (n - t) % (36 - t)) :: digits bias (place + 36) ((n - t) / (36 - t))
termination_by n
decreasing_by
  have := one_le_threshold bias place
  have := Nat.div_le_self (n - threshold bias place) (36 - threshold bias place)
  omega

/-- Brings a number below the range of one more digit, and counts the places. -/
def shrink (n places : Nat) : Nat × Nat :=
  if 455 < n then shrink (n / 35) (places + 36) else (n, places)
termination_by n

/-- The bias after a number, when so many characters have been written. -/
def adapt (n written : Nat) (first : Bool) : Nat :=
  let n := if first then n / 700 else n / 2
  let (n, places) := shrink (n + n / written) 0
  places + 36 * n / (n + 38)

/-! ## Labels -/

/-- How far a label has been written. -/
structure Progress where
  output : List Char
  /-- Places and code points since the last character that was written. -/
  distance : Nat
  bias : Nat
  written : Nat
  /-- Whether no number has been written. -/
  first : Bool

/-- Passes a place of the label while the characters of one code point are written. -/
def Progress.pass (code : Nat) (p : Progress) (c : Char) : Progress :=
  if c.toNat < code then { p with distance := p.distance + 1 }
  else if c.toNat = code then
    { output := p.output ++ digits p.bias 36 p.distance
      distance := 0
      bias := adapt p.distance (p.written + 1) p.first
      written := p.written + 1
      first := false }
  else p

/-- Writes the characters of some code points, which ascend from `next` on. -/
def writeCodes (label : List Char) : (next : Nat) → List Nat → Progress → Progress
  | _, [], p => p
  | next, code :: rest, p =>
    let p := { p with distance := p.distance + (code - next) * (p.written + 1) }
    let p := label.foldl (Progress.pass code) p
    writeCodes label (code + 1) rest { p with distance := p.distance + 1 }

/-- A label in ASCII. -/
def encodeLabel (label : List Char) : List Char :=
  let basic := label.filter (·.toNat < 0x80)
  let codes := ((label.filter (0x80 ≤ ·.toNat)).map Char.toNat).eraseDups.mergeSort
    (fun a b => decide (a ≤ b))
  let start : Progress := ⟨if basic = [] then [] else basic ++ ['-'], 0, 72, basic.length, true⟩
  if codes = [] then label else "xn--".toList ++ (writeCodes label 0x80 codes start).output

/-! ## Names of hosts -/

/-- A character of a name in its usual form: full stops of other scripts become points,
wide forms plain ones, blanks spaces, and capital letters small; a soft hyphen vanishes. -/
def usualForm (c : Char) : List Char :=
  let n := c.toNat
  if n = 0xAD then []
  else if isBlank c then [' ']
  else if n = 0x3002 ∨ n = 0xFF61 then ['.']
  else if 0xFF01 ≤ n ∧ n ≤ 0xFF5E then lowerChar (Char.ofNat (n - 0xFEE0))
  else lowerChar c

/-- Whether a character may be written in ASCII. Those of ASCII may. -/
def isNameable (c : Char) : Bool := c.toNat < 0x80 || (isGraphic c && c.toNat ≠ 0xFFFD)

/-- The name of a host in ASCII, if its characters have such a form. -/
def encode? (name : List Char) : Option (List Char) :=
  let name := name.flatMap usualForm
  if name.all isNameable then some (join ['.'] ((splitOn '.' name).map encodeLabel)) else none

end TriageDesk.Http.Punycode
