/-
TriageDesk.Agent.Reply — what a reply of the model asks for.

A reply is a final answer or the call of a tool. The call is a JSON object
with the name of the tool and its arguments. It is looked for in a fenced
block of JSON; without one, from the first opening brace of the reply to
the last closing one; and a reply that begins with a brace but never closes
it is a call as a whole. What was found but cannot be read is refused when
it was clearly meant as a call, and otherwise left as an answer.

Follows `ToolCall`, `PlannerOutput`, here `Reply`, and `parse_llm_output`, here
`Reply.read`.
-/
import TriageDesk.Json.Decoder
import TriageDesk.Text.Blank

namespace TriageDesk.Agent

open Text Json

/-! ## Calls -/

/-- A tool to be run, with its arguments. -/
structure Call where
  tool : String
  args : Json

/-- Reads a call. -/
def Call.decoder : Decoder Call :=
  .record "ToolCall"
    [.needed "tool" .text fun x (c : Call) => { c with tool := x },
     .optional "args" .any fun x c => { c with args := x }]
    ⟨"", .null⟩

/-- A call as a value. -/
def Call.toJson (c : Call) : Json := .object [("args", c.args), ("tool", .string c.tool)]

/-! ## Where a call may stand -/

/-- The mark that opens a fenced block of JSON. -/
def fenceOpener : List Char := "```json".toList

/-- The mark that closes a fenced block. -/
def fenceCloser : List Char := "```".toList

/-- The text of the first fenced block, which may lack its end. -/
def fenced? (reply : List Char) : Option (List Char) := do
  let (_, rest) ← cutAtFirst fenceOpener reply
  match cutAtFirst fenceCloser rest with
  | some (block, _) => return trim block
  | none => return trim rest

/-- The text from the first opening brace to the last closing one. -/
def braced? (reply : List Char) : Option (List Char) :=
  match throughLast '}' (fromFirst '{' reply) with
  | [] => none
  | found => some found

/-- The part of a reply that may be a call. -/
def candidate? (reply : List Char) : Option (List Char) :=
  match fenced? reply with
  | some block => some block
  | none =>
    match braced? reply with
    | some found => some found
    | none => if startsWith ['{'] reply then some reply else none

/-- Whether a reply, read as a call, cannot be meant as anything else. -/
def meansCall (reply : List Char) : Bool := (fenced? reply).isSome || startsWith ['{'] reply

/-! ## Replies -/

/-- What a reply asks for. -/
inductive Reply
  | answer (text : String)
  | call (c : Call)

/-- Reads a reply. A call that cannot be read is refused with the reason and its
text. -/
def Reply.read (output : String) : Except String Reply :=
  let reply := trim output.toList
  match candidate? reply with
  | none => .ok (.answer (String.ofList reply))
  | some found =>
    match Call.decoder.ofText (String.ofList found) with
    | .ok c => .ok (if allBlank c.tool then .answer (String.ofList reply) else .call c)
    | .error reason =>
      if meansCall reply then .error (reason ++ ": " ++ String.ofList found)
      else .ok (.answer (String.ofList reply))

/-! ## What replies come from -/

/-- A call is decoded from the part of the output that may be one. -/
theorem Reply.read_eq_call_iff {output : String} {c : Call} : Reply.read output = .ok (.call c) ↔
    ∃ found, candidate? (trim output.toList) = some found ∧
      Call.decoder.ofText (String.ofList found) = .ok c ∧ allBlank c.tool = false := by
  unfold Reply.read
  cases looked : candidate? (trim output.toList) with
  | none => simp [looked]
  | some found =>
    cases decoded : Call.decoder.ofText (String.ofList found) with
    | error reason =>
      simp only [looked, decoded]
      split <;> simp [decoded]
    | ok d =>
      simp only [looked, decoded]
      split
      · rename_i blank
        simp only [reduceCtorEq, Except.ok.injEq, Option.some.injEq, exists_eq_left', decoded,
          false_iff, not_and]
        rintro rfl
        simp [blank]
      · rename_i named
        simp only [Except.ok.injEq, Reply.call.injEq, Option.some.injEq, exists_eq_left', decoded]
        constructor
        · rintro rfl
          exact ⟨rfl, by simpa using named⟩
        · exact fun same => same.1

/-- An answer is the output without the white space around it. -/
theorem Reply.eq_of_read_answer {output text : String}
    (read : Reply.read output = .ok (.answer text)) : text = trimmed output := by
  unfold Reply.read at read
  cases looked : candidate? (trim output.toList) with
  | none =>
    simp only [looked] at read
    cases read
    rfl
  | some found =>
    cases decoded : Call.decoder.ofText (String.ofList found) with
    | ok c =>
      simp only [looked, decoded] at read
      split at read <;> cases read
      rfl
    | error reason =>
      simp only [looked, decoded] at read
      split at read <;> cases read
      rfl

/-- Only what cannot be meant as anything but a call is refused. -/
theorem Reply.meansCall_of_read_error {output reason : String}
    (read : Reply.read output = .error reason) : meansCall (trim output.toList) = true := by
  unfold Reply.read at read
  cases looked : candidate? (trim output.toList) with
  | none =>
    simp only [looked] at read
    cases read
  | some found =>
    cases decoded : Call.decoder.ofText (String.ofList found) with
    | ok c =>
      simp only [looked, decoded] at read
      cases read
    | error reason =>
      simp only [looked, decoded] at read
      split at read
      · assumption
      · cases read

end TriageDesk.Agent
