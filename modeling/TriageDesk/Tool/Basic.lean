/-
TriageDesk.Tool.Basic — tools that the model can call.

A tool has a name, a description and a schema of its arguments for the
model, and work that it does in some world. The work returns after a time or
never does.

Follows `Tool`.
-/
import TriageDesk.Act

namespace TriageDesk

/-- How the work of a tool ends: it returns after so many milliseconds, with a
result or with the text of a failure, or it never returns. -/
inductive Tool.Outcome
  | returned (after : Nat) (result : Except String String)
  | hangs

/-- A tool that the model can call. -/
structure Tool (World : Type) where
  name : String
  description : String
  /-- The schema of the arguments. -/
  parameters : Json
  run : Json → Act World Tool.Outcome

namespace Tool

variable {World Part : Type}

/-- The schema of arguments of any form. -/
def anyParameters : Json :=
  .ofMembers [("type", .string "object"), ("properties", .object []), ("required", .array [])]

/-- Work that returns at once. -/
def atOnce (work : Json → Act World (Except String String)) (args : Json) : Act World Outcome := do
  return .returned 0 (← work args)

/-- A tool that works on a part of the world. -/
def within (part : World → Part) (put : Part → World → World) (t : Tool Part) : Tool World :=
  { t with run := fun args => Act.within part put (t.run args) }

/-- A string among the properties of a schema. -/
def textProperty (name : String) (description : Option String) : String × Json :=
  (name, .ofMembers (("type", .string "string") ::
    (description.map fun d => ("description", Json.string d)).toList))

/-- A schema with properties, some of which have to be given. -/
def schema (properties : List (String × Json)) (required : List String) : Json :=
  .ofMembers ([("type", .string "object"), ("properties", .ofMembers properties)] ++
    if required = [] then [] else [("required", .array (required.map .string))])

end Tool

end TriageDesk
