/-
TriageDesk.Json.Value — values of the JSON data model.

Numbers are whole numbers or numbers of the 64-bit binary format; a value
never turns one into the other. The members of an object ascend by name
wherever this library builds one, so that the order in which they were
written leaves no trace.
-/
import TriageDesk.Decimal.Binary64
import TriageDesk.Table

namespace TriageDesk

open Decimal

/-- A JSON number. -/
inductive Json.Number
  | int (n : Int)
  | float (x : Binary64)
deriving DecidableEq, Repr

/-- A JSON value. -/
inductive Json
  | null
  | bool (b : Bool)
  | number (n : Json.Number)
  | string (s : String)
  | array (items : List Json)
  | object (members : List (String × Json))
deriving Repr, Inhabited

namespace Json

/-- A whole number as a value. -/
def int (n : Int) : Json := .number (.int n)

/-- A natural number as a value. -/
def nat (n : Nat) : Json := .number (.int n)

/-- An object of members given in any order; the last of a name stays. -/
def ofMembers (members : List (String × Json)) : Json :=
  .object (members.foldl (fun acc e => Entries.insert e.1 e.2 acc) [])

/-- An object of a table of values. -/
def ofTable (t : Table Json) : Json := .object t.entries

/-- An object of a table of texts. -/
def ofTexts (t : Table String) : Json := ofTable (t.map .string)

/-- The member of an object under a name; other values have no members. -/
def member? (v : Json) (name : String) : Option Json :=
  match v with
  | .object members => Entries.find? name members
  | _ => none

/-- The text of a string value. -/
def text? : Json → Option String
  | .string s => some s
  | _ => none

/-- The text of a string member. -/
def textMember? (v : Json) (name : String) : Option String := (v.member? name).bind text?

end Json

end TriageDesk
