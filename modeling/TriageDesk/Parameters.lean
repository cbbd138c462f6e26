/-
TriageDesk.Parameters — tables of named parameters, and the two ways of
giving one.

A table is given as text, `name=value` pieces between commas, or as a JSON
object. In a piece the first `=` counts; a comma or a second name cannot be
escaped. Pieces without `=` and pieces with a blank name say nothing, and
the last piece of a name wins.

Follows `parse_params`, here `ofText`, and `params_from_value`, here `ofJson?`.
-/
import TriageDesk.Json.Decoder
import TriageDesk.Text.Blank

namespace TriageDesk

/-- Named parameters. -/
abbrev Parameters := Table String

namespace Parameters

open Text

/-- The name and the value that a piece of text gives, if it gives any. -/
def ofPiece? (piece : List Char) : Option (String × String) :=
  match splitOnce '=' piece with
  | none => none
  | some (name, value) =>
    if trim name = [] then none
    else some (String.ofList (trim name), String.ofList (trim value))

/-- The parameters of a text. -/
def ofText (s : String) : Parameters :=
  Table.ofList ((splitOn ',' s.toList).filterMap ofPiece?)

/-- A member of an object as a parameter: a string without the white space at
its ends, any other value as JSON text. -/
def ofMember? (member : String × Json) : Option (String × String) :=
  let name := trimmed member.1
  if name = "" then none
  else
    match member.2 with
    | .string s => some (name, trimmed s)
    | v => some (name, v.compact)

/-- The parameters that a value gives: a string gives those of its text, an
object its members, and anything else none. -/
def ofJson? : Option Json → Parameters
  | some (.string s) => ofText s
  | some (.object members) => Table.ofList (members.filterMap ofMember?)
  | _ => ∅

end Parameters

end TriageDesk
