/-
TriageDesk.Tool.Disposal — disposals through the interfaces of another
server.

A call names an endpoint and its parameters; path and body are filled from
them, and the path is put behind the address of the server. The answer is
shown, in several lines if it is JSON. A call that names no endpoint sends
nothing, nor does any call once the tool has been closed.

Follows `SheikahApiTool`, the tool `sheikah_api`: `prepare`, `prepare_with`,
`send`, `execute` and `close`; `present` is `pretty_json`.
-/
import TriageDesk.Desk
import TriageDesk.Endpoint
import TriageDesk.Template
import TriageDesk.Tool.Basic

namespace TriageDesk

open Text

/-- The server of disposals and its endpoints. -/
structure Disposal where
  endpoints : Table Endpoint
  /-- The address of the server, without slashes at the end. -/
  baseUrl : String
  apiKey : String

namespace Disposal

/-- The name of the tool. -/
def toolName : String := "sheikah_api"

/-- The header that holds the key. -/
def keyHeader : String := "sw-api-key"

/-- A text without slashes at its end. -/
def withoutSlashes (s : String) : String :=
  String.ofList (s.toList.reverse.dropWhile (· = '/')).reverse

/-- The server at an address, with its endpoints and its key. -/
def ofServer (endpoints : Table Endpoint) (baseUrl apiKey : String) : Disposal :=
  ⟨endpoints, withoutSlashes baseUrl, apiKey⟩

/-- Why a disposal has no result. -/
inductive Failure
  | nothingAsked
  | unknownEndpoint (id : String)
  | badMethod (id method : String)
  | closed
  | exchange (f : Http.Failure)
  | refused (status : Nat) (body : String)
deriving DecidableEq, Repr

/-- A failure in words. -/
def Failure.message : Failure → String
  | .nothingAsked => "api is required"
  | .unknownEndpoint id => s!"api not found: {id}"
  | .badMethod id method => s!"invalid method for {id}: {method}"
  | .closed => s!"{toolName} is closed"
  | .exchange f => f.message
  | .refused status body => s!"API returned error: {status} - {body}"

/-! ## What is asked -/

/-- A disposal with its parameters filled in. -/
structure Prepared where
  method : String
  url : String
  body : Option String
deriving DecidableEq, Repr

/-- A disposal, its templates being filled by a function. -/
def prepareWith (d : Disposal) (id : String) (fill : String → String) : Except Failure Prepared :=
  match d.endpoints.get? id with
  | none => .error (.unknownEndpoint id)
  | some e =>
    if Endpoint.isToken e.methodName then
      .ok { method := e.methodName
            url := d.baseUrl ++ fill e.path
            body := if e.body = "" then none else some (fill e.body) }
    else .error (.badMethod id e.method)

/-- A disposal with parameters. -/
def prepare (d : Disposal) (id : String) (params : Parameters) : Except Failure Prepared :=
  d.prepareWith id (Template.fill · params)

/-- The endpoint that the arguments of a call name. -/
def endpointId? (args : Json) : Option String :=
  ((args.textMember? "api").map trimmed).filter (· ≠ "")

/-- The endpoint that the arguments of a call name, and the disposal. -/
def prepareArguments (d : Disposal) (args : Json) : Except Failure (String × Prepared) :=
  match endpointId? args with
  | none => .error .nothingAsked
  | some id =>
    let prepared :=
      match args.member? "params" with
      | some (.string params) => d.prepareWith id (Template.fillFromText · params)
      | params => d.prepare id (Parameters.ofJson? params)
    prepared.map (id, ·)

/-! ## How it is asked -/

/-- The request of a disposal. -/
def request (d : Disposal) (p : Prepared) : Http.Request :=
  { method := p.method, url := p.url
    headers := ("content-type", "application/json") ::
      (if d.apiKey = "" then [] else [(keyHeader, d.apiKey)])
    body := p.body }

/-- An answer as it is shown. -/
def present (body : String) : String :=
  match Json.parse? body with
  | some v => v.pretty
  | none => body

/-- The answer, if it is no error. -/
def accepted : Except Http.Failure (Nat × String) → Except Failure String
  | .error f => .error (.exchange f)
  | .ok (status, body) => if 400 ≤ status then .error (.refused status body) else .ok (present body)

/-- Sends a disposal, unless the tool has been closed. -/
def send (d : Disposal) (p : Prepared) : Act Desk (Except Failure String) := do
  if (← Act.look).disposalsOpen then return accepted (← Desk.send (d.request p))
  else return .error .closed

/-- Applies the disposal that the arguments of a call ask for. -/
def execute (d : Disposal) (args : Json) : Act Desk (Except Failure String) := do
  match d.prepareArguments args with
  | .error f => return .error f
  | .ok (id, p) =>
    Act.report (.disposalSent id p.method p.url)
    d.send p

/-- Closes the tool for good. -/
def close : Act Desk Unit := Act.change fun d => { d with disposalsOpen := false }

/-! ## The tool -/

/-- What the model is told of the tool. -/
def description (d : Disposal) : String :=
  let names := joined ", " d.endpoints.keys
  "Call the internal Sheikah API to apply a disposal. Args: \x7b\"api\": \"api id\", \"params\": \"key1=value1,key2=value2\"\x7d. Available api: "
    ++ names
    ++ ". Example: \x7b\"api\": \"confirm_risk\", \"params\": \"content=xxx,host=xxx,risk=xxx,note=xxx\"\x7d"

/-- The schema of the arguments. -/
def parameters : Json :=
  Tool.schema
    [Tool.textProperty "api" "API id", Tool.textProperty "params" "key1=value1,key2=value2"]
    ["api"]

/-- The tool of a server. -/
def tool (d : Disposal) : Tool Desk :=
  { name := toolName, description := d.description, parameters
    run := Tool.atOnce fun args => do return (← d.execute args).mapError Failure.message }

end Disposal

end TriageDesk
