/-
TriageDesk.Text.Blank — white space, and text without it at its ends.

White space is the Unicode property `White_Space`: twenty-five code
points. `trim` drops the longest run of them at each end and nothing
else.
-/

namespace TriageDesk.Text

/-! ## The property -/

/-- White space: the code points of the Unicode property `White_Space`. -/
def isBlank (c : Char) : Bool :=
  let n := c.toNat
  (0x9 ≤ n && n ≤ 0xD) || n == 0x20 || n == 0x85 || n == 0xA0 || n == 0x1680 ||
    (0x2000 ≤ n && n ≤ 0x200A) || n == 0x2028 || n == 0x2029 || n == 0x202F ||
    n == 0x205F || n == 0x3000

/-- White space of ASCII without the vertical tab: what separates words in
a header or a request body. -/
def isAsciiBlank (c : Char) : Bool :=
  c == ' ' || c == '\t' || c == '\n' || c == '\r' || c == '\x0c'

/-! ## Trimming -/

/-- The characters without the white space they begin with. -/
def trimLeft (cs : List Char) : List Char := cs.dropWhile isBlank

/-- The characters without the white space they end with. -/
def trimRight (cs : List Char) : List Char := (cs.reverse.dropWhile isBlank).reverse

/-- The characters without white space at either end. -/
def trim (cs : List Char) : List Char := trimRight (trimLeft cs)

/-- A text without white space at either end. -/
def trimmed (s : String) : String := String.ofList (trim s.toList)

/-- Whether a text holds nothing but white space. -/
def allBlank (s : String) : Bool := s.toList.all isBlank

end TriageDesk.Text
