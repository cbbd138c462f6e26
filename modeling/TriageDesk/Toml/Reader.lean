/-
TriageDesk.Toml.Reader — reading a TOML text.

A text consists of lines: headers, keys with their values, comments. Arrays
may stretch over several lines; a table in braces stands on one. `parse?`
gives the table of the whole text as the members of an object, or nothing if
the text breaks a rule.
-/
import TriageDesk.Toml.Document
import TriageDesk.Toml.Strings

namespace TriageDesk.Toml

open Text

/-! ## Values -/

/-- What follows after blanks, line breaks and comments. -/
def skipFiller : (fuel : Nat) → List Char → List Char
  | 0, cs => cs
  | fuel + 1, cs =>
    match skipWhite cs with
    | '#' :: rest => skipFiller fuel (rest.dropWhile isPlain)
    | cs => cs

/-- What follows after filler. -/
def afterFiller (cs : List Char) : List Char := skipFiller (cs.length + 1) cs

/-- The items of an array, from after its bracket or a comma on. -/
def items? (item : Reader Json) : (fuel : Nat) → Reader (List Json)
  | 0, _ => none
  | fuel + 1, cs =>
    match afterFiller cs with
    | ']' :: rest => some ([], rest)
    | cs => do
      let (v, rest) ← item cs
      match afterFiller rest with
      | ',' :: rest =>
        let (vs, rest) ← items? item fuel rest
        return (v :: vs, rest)
      | ']' :: rest => return ([v], rest)
      | _ => none

/-- A key and its value. -/
def pair? (item : Reader Json) : Reader (List String × Json) := fun cs => do
  let (path, rest) ← keys? (cs.length + 1) cs
  match rest with
  | '=' :: rest =>
    let (v, rest) ← item (skipLineBlanks rest)
    return ((path, v), rest)
  | _ => none

/-- Puts a value under its keys. -/
def putAt (members : Members) : List String × Json → Option Members
  | ([], _) => none
  | (k :: path, v) => members.put k path v

/-- The pairs of a table in braces, from a key on. -/
def pairs? (item : Reader Json) : (fuel : Nat) → Members → Reader Members
  | 0, _, _ => none
  | fuel + 1, members, cs => do
    let (pair, rest) ← pair? item cs
    let members ← putAt members pair
    match skipLineBlanks rest with
    | ',' :: rest => pairs? item fuel members rest
    | '}' :: rest => return (members, rest)
    | _ => none

/-- A value, in which so many brackets may still be opened. -/
def value? : (room : Nat) → Reader Json
  | _, '"' :: rest => (string? '"' ('"' :: rest)).map fun (s, rest) => (.string s, rest)
  | _, '\'' :: rest => (string? '\'' ('\'' :: rest)).map fun (s, rest) => (.string s, rest)
  | room + 1, '[' :: rest =>
    (items? (value? room) (rest.length + 1) rest).map fun (vs, rest) => (.array vs, rest)
  | room + 1, '{' :: rest =>
    match skipLineBlanks rest with
    | '}' :: rest => some (.object [], rest)
    | rest =>
      (pairs? (value? room) (rest.length + 1) [] rest).map fun (members, rest) =>
        (.object (membersToJson members), rest)
  | _, cs =>
    let (word, rest) := takeWord cs
    (scalar? word).map fun v => (v, rest)

/-- How many brackets may be open at once. -/
def maxDepth : Nat := 79

/-! ## Lines -/

/-- What follows the end of a line, before which there may be a comment. -/
def lineEnd? (cs : List Char) : Option (List Char) :=
  let rest :=
    match skipLineBlanks cs with
    | '#' :: rest => rest.dropWhile isPlain
    | rest => rest
  match rest with
  | [] => some []
  | rest => afterBreak? rest

/-- A document while its lines are read: the way to the open table, and what there is. -/
structure Progress where
  path : List String
  members : Members

/-- A header in so many brackets, from after the opening ones on. -/
def header? (closing : List Char) : Reader (List String) := fun cs => do
  let (path, rest) ← keys? (cs.length + 1) cs
  let rest ← after? closing rest
  return (path, rest)

/-- Reads a line that is not empty. -/
def line? (p : Progress) : Reader Progress
  | '[' :: '[' :: rest => do
    let (path, rest) ← header? [']', ']'] rest
    let members ← p.members.atEnd Members.openItem path
    return (⟨path, members⟩, rest)
  | '[' :: rest => do
    let (path, rest) ← header? [']'] rest
    let members ← p.members.atEnd Members.openTable path
    return (⟨path, members⟩, rest)
  | cs => do
    let (pair, rest) ← pair? (value? maxDepth) cs
    let members ← Members.along (putAt · pair) p.path p.members
    return ({ p with members }, rest)

/-- Reads all lines. -/
def lines? : (fuel : Nat) → Progress → List Char → Option Progress
  | 0, _, _ => none
  | fuel + 1, p, cs =>
    match skipWhite cs with
    | [] => some p
    | '#' :: rest => do lines? fuel p (← lineEnd? ('#' :: rest))
    | cs => do
      let (p, rest) ← line? p cs
      lines? fuel p (← lineEnd? rest)

/-- A text without the mark of the order of octets. -/
def withoutMark : List Char → List Char
  | '\uFEFF' :: rest => rest
  | cs => cs

/-- The members of the table of a text. -/
def parse? (text : String) : Option (List (String × Json)) :=
  let cs := withoutMark text.toList
  (lines? (cs.length + 1) ⟨[], []⟩ cs).map fun p => membersToJson p.members

end TriageDesk.Toml
