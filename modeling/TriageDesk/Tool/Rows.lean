/-
TriageDesk.Tool.Rows — the rows of a query and how they are shown.

Rows are shown as a count, an empty line, and at most ten lines with the
cells between tabs; a last line says how many rows were left out. A text
that holds no rows is shown as it is.

Follows `TabularResponse`, `cell_to_string` and `format_response`, here
`present`.
-/
import TriageDesk.Json.Decoder

namespace TriageDesk.Rows

open Json Text

/-- How many rows are shown. -/
def mostShown : Nat := 10

/-- Reads the rows of an answer. -/
def decoder : Decoder (List (List Json)) :=
  .record "TabularResponse"
    [.needed "data" (.list (.list .any)) fun rows _ => rows]
    []

/-- A cell as text: a string as it is, and nothing as `NULL`. -/
def cell : Json → String
  | .null => "NULL"
  | .string s => s
  | v => v.compact

/-- A row as a line. -/
def line (row : List Json) : String := joined "\t" (row.map cell) ++ "\n"

/-- Rows as text. -/
def write (rows : List (List Json)) : String :=
  if rows.isEmpty then "Query returned no rows"
  else
    let left := rows.length - mostShown
    let shown := String.join ((rows.take mostShown).map line)
    let more := if mostShown < rows.length then s!"\n... {left} more rows" else ""
    s!"Total {rows.length} rows:\n\n{shown}{more}"

/-- The body of an answer as it is shown. -/
def present (body : String) : String :=
  match decoder.ofText body with
  | .ok rows => write rows
  | .error _ => body

end TriageDesk.Rows
