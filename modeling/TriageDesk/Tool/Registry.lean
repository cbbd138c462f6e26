/-
TriageDesk.Tool.Registry — the tools that can be called, by name.

Of two tools of one name the one that was registered last stays. The views
for the model, names, descriptions and schemas, list the tools in the order
of their names; a call of any other name fails and says which tools there
are.

Follows `ToolRegistry`: `register`, `get`, `execute`, here `run`, `tool_names`,
`tool_descriptions` and `to_schema_json`, here `schemaText`.
-/
import TriageDesk.Tool.Basic

namespace TriageDesk

open Text

/-- The tools that can be called, under their names. -/
structure Registry (World : Type) where
  tools : Table (Tool World)

namespace Registry

variable {World : Type}

/-- A registry without tools. -/
def empty : Registry World := ⟨∅⟩

/-- Registers a tool, in the place of one of its name. -/
def register (r : Registry World) (t : Tool World) : Registry World := ⟨r.tools.insert t.name t⟩

/-- The registry of some tools, registered in their order. -/
def ofTools (tools : List (Tool World)) : Registry World := tools.foldl register empty

/-- The tool of a name. -/
def get? (r : Registry World) (name : String) : Option (Tool World) := r.tools.get? name

/-- The names of the tools. -/
def names (r : Registry World) : List String := r.tools.keys

/-- The names of the tools with their descriptions. -/
def descriptions (r : Registry World) : List (String × String) :=
  r.tools.entries.map fun (name, t) => (name, t.description)

/-- What the model is told of a tool. -/
def schemaOf (t : Tool World) : Json :=
  .ofMembers [("name", .string t.name), ("description", .string t.description),
    ("parameters", t.parameters)]

/-- What the model is told of the tools, as text. -/
def schemaText (r : Registry World) : String :=
  (Json.array (r.tools.values.map schemaOf)).pretty

/-- The failure of a call of a tool that is not registered. -/
def unknown (r : Registry World) (name : String) : String :=
  let available := joined ", " r.names
  s!"Unknown tool: {name}. Available: {available}"

/-- Runs the tool of a name. -/
def run (r : Registry World) (name : String) (args : Json) : Act World Tool.Outcome :=
  match r.get? name with
  | some t => t.run args
  | none => return .returned 0 (.error (r.unknown name))

end Registry

end TriageDesk
