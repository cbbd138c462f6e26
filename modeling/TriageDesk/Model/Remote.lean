/-
TriageDesk.Model.Remote — a model behind an interface for chat completions.

A request names the model and holds the messages; the key goes along as a
bearer token. Of an answer the text of the first choice counts, and the
numbers of tokens are added up.

Follows `OpenAiClient` with its `complete` and `to_openai_messages`, and
`TokenUsage`.
-/
import TriageDesk.Agent.Message
import TriageDesk.Http.Exchange
import TriageDesk.Json.Decoder

namespace TriageDesk.Model

open Agent Text

/-- A model behind an interface for chat completions. -/
structure Remote where
  baseUrl : String
  model : String
  apiKey : String
deriving DecidableEq, Repr

/-- How many tokens have been used. -/
structure Usage where
  prompt : Nat
  completion : Nat
  total : Nat
deriving DecidableEq, Repr

namespace Usage

/-- No tokens. -/
def none : Usage := ⟨0, 0, 0⟩

/-- More tokens of a prompt and of its completion. -/
def add (u : Usage) (prompt completion : Nat) : Usage :=
  ⟨u.prompt + prompt, u.completion + completion, u.total + (prompt + completion)⟩

end Usage

namespace Remote

/-- Where the interface is found unless something else is said. -/
def usualBaseUrl : String := "https://api.openai.com/v1"

/-- The key that is sent where there is none. -/
def placeholderKey : String := "sk-placeholder"

/-- The request for a completion. -/
def request (r : Remote) (messages : List Message) : Http.Request :=
  { method := "POST", url := r.baseUrl ++ "/chat/completions"
    headers := [("content-type", "application/json"), ("authorization", "Bearer " ++ r.apiKey)]
    body := some (Json.ofMembers [("model", .string r.model),
      ("messages", .array (messages.map Message.toJson))]).compact }

/-- Why there is no completion. -/
inductive Failure
  | exchange (f : Http.Failure)
  | refused (message : String)
  | unreadable (reason body : String)
deriving DecidableEq, Repr

/-- A failure in words. -/
def Failure.message : Failure → String
  | .exchange f => s!"http error: {f.reason}"
  | .refused message => message
  | .unreadable reason body =>
    s!"failed to deserialize api response: error:{reason} content:{body}"

/-- A text that may be null. -/
def nullable (v : Option Json) : Option String := v.bind Json.text?

/-- What an answer with an error says. -/
def refusal? (v : Json) : Option String := do
  let e ← v.member? "error"
  let message ← e.textMember? "message"
  let kind := (nullable (e.member? "type")).map fun s => s!"{s}:"
  let param := (nullable (e.member? "param")).map fun s => s!"(param: {s})"
  let code := (nullable (e.member? "code")).map fun s => s!"(code: {s})"
  return joined " " (kind.toList ++ [message] ++ param.toList ++ code.toList)

/-- A number of tokens. -/
def tokens (usage : Json) (name : String) : Nat :=
  match usage.member? name with
  | some (.number (.int n)) => n.toNat
  | _ => 0

/-- The completion of an answer, and the usage after it. -/
def read (usage : Usage) : Except Http.Failure (Nat × String) → Except Failure (String × Usage)
  | .error f => .error (.exchange f)
  | .ok (status, body) =>
    match Json.Decoder.any.ofText body with
    | .error reason => .error (.unreadable reason body)
    | .ok v =>
      if status < 200 ∨ 299 < status then
        match refusal? v with
        | some message => .error (.refused message)
        | none => .error (.unreadable (Json.Mismatch.missingField "error").message body)
      else
        match v.member? "choices" with
        | some (.array choices) =>
          let content := do (← (← choices.head?).member? "message").textMember? "content"
          let usage :=
            match v.member? "usage" with
            | some u => usage.add (tokens u "prompt_tokens") (tokens u "completion_tokens")
            | none => usage
          .ok (content.getD "", usage)
        | _ => .error (.unreadable (Json.Mismatch.missingField "choices").message body)

end Remote

end TriageDesk.Model
