/-
TriageDesk.Agent.Message — the messages of a conversation with the model.

Follows `Role` and `Message`.
-/
import TriageDesk.Json.Value

namespace TriageDesk.Agent

/-- Who speaks in a message. -/
inductive Role
  | user
  | assistant
  | system
deriving DecidableEq, Repr, Inhabited

/-- The name of a role. -/
def Role.name : Role → String
  | .user => "user"
  | .assistant => "assistant"
  | .system => "system"

/-- The roles with their names. -/
def Role.named : List (String × Role) :=
  [("user", .user), ("assistant", .assistant), ("system", .system)]

/-- A message. -/
structure Message where
  role : Role
  content : String
deriving DecidableEq, Repr, Inhabited

/-- A message as a value. -/
def Message.toJson (m : Message) : Json :=
  .ofMembers [("role", .string m.role.name), ("content", .string m.content)]

end TriageDesk.Agent
