/-
TriageDesk.Model.Script — a model whose replies are laid down beforehand.

The replies come in their order; after the last one the model always gives
the same final answer. What it was asked is kept.

Follows `MockLlmClient`.
-/
import TriageDesk.Act
import TriageDesk.Agent.Message

namespace TriageDesk.Model

open Agent

/-- A model whose replies are laid down; where a reply is missing, the model stays
silent. -/
structure Script where
  replies : List (Option (Except String String))
  asked : List (List Message)

namespace Script

/-- The answer after the last reply. -/
def finalAnswer : String := "No further action required."

/-- A script of some replies. -/
def ofReplies (replies : List (Option (Except String String))) : Script := ⟨replies, []⟩

/-- Asks the model. -/
def complete (messages : List Message) : Act Script (Option (Except String String)) := do
  let s ← Act.look
  Act.change fun s => { replies := s.replies.tail, asked := s.asked ++ [messages] }
  return s.replies.headD (some (.ok finalAnswer))

end Script

end TriageDesk.Model
