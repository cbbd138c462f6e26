/-
TriageDesk.Json.Printer — JSON values as text.

`compact` writes a value without blanks, `pretty` with a line per item and
an indentation of two spaces a level. In strings the quote, the backslash
and the control characters below the space are escaped and nothing else.
-/
import TriageDesk.Json.Value
import TriageDesk.Decimal.Layout
import TriageDesk.Text.Quoted

namespace TriageDesk.Json

open Decimal

/-! ## Scalars -/

/-- Numbers keep their point, are written positionally from `10 ^ -5` up to
below `10 ^ 16`, and give a positive exponent its sign. -/
def numberLayout : Layout := ⟨-5, 15, true, true, .toEven⟩

/-- A number as text. -/
def Number.write : Number → List Char
  | .int n => (toString n).toList
  | .float x => numberLayout.write x

/-- One character inside a string. -/
def escapeChar (c : Char) : List Char :=
  if c = '"' then ['\\', '"']
  else if c = '\\' then ['\\', '\\']
  else if c = '\x08' then ['\\', 'b']
  else if c = '\x0c' then ['\\', 'f']
  else if c = '\n' then ['\\', 'n']
  else if c = '\r' then ['\\', 'r']
  else if c = '\t' then ['\\', 't']
  else if c.toNat < 0x20 then
    ['\\', 'u', '0', '0', Nat.digitChar (c.toNat / 16), Nat.digitChar (c.toNat % 16)]
  else [c]

/-- A string with its quotes. -/
def writeString (s : String) : List Char := '"' :: s.toList.flatMap escapeChar ++ ['"']

/-! ## Without blanks -/

mutual

/-- A value without blanks. -/
def writeCompact : Json → List Char
  | .null => ['n', 'u', 'l', 'l']
  | .bool true => ['t', 'r', 'u', 'e']
  | .bool false => ['f', 'a', 'l', 's', 'e']
  | .number n => n.write
  | .string s => writeString s
  | .array items => '[' :: writeItems items ++ [']']
  | .object members => '{' :: writeMembers members ++ ['}']

/-- Items with commas between them. -/
def writeItems : List Json → List Char
  | [] => []
  | v :: [] => writeCompact v
  | v :: w :: rest => writeCompact v ++ ',' :: writeItems (w :: rest)

/-- Members with commas between them. -/
def writeMembers : List (String × Json) → List Char
  | [] => []
  | (k, v) :: [] => writeString k ++ ':' :: writeCompact v
  | (k, v) :: e :: rest => writeString k ++ ':' :: (writeCompact v ++ ',' :: writeMembers (e :: rest))

end

/-- A value without blanks, as text. -/
def compact (v : Json) : String := String.ofList (writeCompact v)

/-! ## Over several lines -/

/-- The start of a line at a level of nesting. -/
def newLine (level : Nat) : List Char := '\n' :: List.replicate (2 * level) ' '

mutual

/-- A value over several lines, its brackets at the given level. -/
def writePretty (level : Nat) : Json → List Char
  | .array (v :: rest) =>
    '[' :: writePrettyItems (level + 1) (v :: rest) ++ newLine level ++ [']']
  | .object (e :: rest) =>
    '{' :: writePrettyMembers (level + 1) (e :: rest) ++ newLine level ++ ['}']
  | v => writeCompact v

/-- Items on lines of their own. -/
def writePrettyItems (level : Nat) : List Json → List Char
  | [] => []
  | v :: [] => newLine level ++ writePretty level v
  | v :: w :: rest =>
    newLine level ++ writePretty level v ++ ',' :: writePrettyItems level (w :: rest)

/-- Members on lines of their own. -/
def writePrettyMembers (level : Nat) : List (String × Json) → List Char
  | [] => []
  | (k, v) :: [] => newLine level ++ writeString k ++ ':' :: ' ' :: writePretty level v
  | (k, v) :: e :: rest =>
    newLine level ++ writeString k ++ ':' :: ' ' :: (writePretty level v ++
      ',' :: writePrettyMembers level (e :: rest))

end

/-- A value over several lines, as text. -/
def pretty (v : Json) : String := String.ofList (writePretty 0 v)

end TriageDesk.Json
