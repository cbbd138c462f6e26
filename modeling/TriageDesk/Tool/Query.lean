/-
TriageDesk.Tool.Query — queries of the security data.

A query is given as text, or by the name of a template with parameters; the
text comes first. It is sent as a form to the one address of the database,
and the rows of the answer are shown. Once the tool has been closed it
still says which calls name no query, and sends nothing.

Follows `QueryDataTool`, the tool `query_data`: `query_ids`, `resolve_sql`,
`resolve_with`, `post_sql`, `query`, here `rows`, `execute` and `close`.
-/
import TriageDesk.Desk
import TriageDesk.Http.Form
import TriageDesk.Template
import TriageDesk.Tool.Basic
import TriageDesk.Tool.Rows

namespace TriageDesk

open Text

/-- Where queries go, and the templates. -/
structure Query where
  templates : Table String
  baseUrl : String
  username : String
  password : String

namespace Query

/-- The name of the tool. -/
def toolName : String := "query_data"

/-- Why a query has no result. -/
inductive Failure
  | nothingAsked
  | unknownTemplate (id : String) (available : List String)
  | closed
  | exchange (f : Http.Failure)
  | refused (status : Nat) (body : String)
  | noRows (reason : String)
deriving DecidableEq, Repr

/-- A failure in words. -/
def Failure.message : Failure → String
  | .nothingAsked => "sql_id or raw_sql is required"
  | .unknownTemplate id available =>
    let names := joined ", " available
    s!"sql_id not found: {id}. Available: {names}"
  | .closed => s!"{toolName} is closed"
  | .exchange f => f.message
  | .refused status body => s!"ClickHouse error {status}: {body}"
  | .noRows reason => s!"invalid ClickHouse response: {reason}"

/-! ## What is asked -/

/-- The names of the templates. -/
def ids (q : Query) : List String := q.templates.keys

/-- The text of a query, a template being filled by a function. -/
def resolveWith (q : Query) (id raw : Option String) (fill : String → String) :
    Except Failure String :=
  match raw.filter (!allBlank ·) with
  | some text => .ok text
  | none =>
    match id.filter (!allBlank ·) with
    | none => .error .nothingAsked
    | some id =>
      match q.templates.get? id with
      | some template => .ok (fill template)
      | none => .error (.unknownTemplate id q.ids)

/-- The text of a query. -/
def resolve (q : Query) (id : Option String) (params : Parameters) (raw : Option String) :
    Except Failure String :=
  q.resolveWith id raw (Template.fill · params)

/-- The text of the query that the arguments of a call ask for. -/
def resolveArguments (q : Query) (args : Json) : Except Failure String :=
  let id := args.textMember? "sql_id"
  let raw := args.textMember? "raw_sql"
  match args.member? "params" with
  | some (.string params) => q.resolveWith id raw (Template.fillFromText · params)
  | params => q.resolve id (Parameters.ofJson? params) raw

/-! ## How it is asked -/

/-- The form of a query; a user and a password are only named if there are any. -/
def form (q : Query) (sql : String) : List (String × String) :=
  ("query", sql) ::
    ((if q.username = "" then [] else [("user", q.username)]) ++
      (if q.password = "" then [] else [("password", q.password)]))

/-- The request of a query. -/
def request (q : Query) (sql : String) : Http.Request :=
  { method := "POST", url := q.baseUrl
    headers := [("content-type", "application/x-www-form-urlencoded")]
    body := some (Http.Form.write (q.form sql)) }

/-- The body of an answer that is no error. -/
def accepted : Except Http.Failure (Nat × String) → Except Failure String
  | .error f => .error (.exchange f)
  | .ok (status, body) => if 400 ≤ status then .error (.refused status body) else .ok body

/-- Sends a query, unless the tool has been closed. -/
def post (q : Query) (sql : String) : Act Desk (Except Failure String) := do
  if (← Act.look).queriesOpen then return accepted (← Desk.send (q.request sql))
  else return .error .closed

/-- The rows of a query. -/
def rows (q : Query) (sql : String) : Act Desk (Except Failure (List (List Json))) := do
  match ← q.post sql with
  | .error f => return .error f
  | .ok body => return (Rows.decoder.ofText body).mapError .noRows

/-- Runs the query that the arguments of a call ask for, and shows its rows. -/
def execute (q : Query) (args : Json) : Act Desk (Except Failure String) := do
  match q.resolveArguments args with
  | .error f => return .error f
  | .ok sql =>
    Act.report (.queryRun sql)
    return (← q.post sql).map Rows.present

/-- Closes the tool for good. -/
def close : Act Desk Unit := Act.change fun d => { d with queriesOpen := false }

/-! ## The tool -/

/-- What the model is told of the tool. -/
def description (q : Query) : String :=
  let names := joined ", " q.ids
  "Query security data from ClickHouse. Args: \x7b\"sql_id\": \"template id\", \"params\": \"key1=value1,key2=value2\", \"raw_sql\": \"optional SQL, overrides sql_id\"\x7d. Available sql_id: "
    ++ names

/-- The schema of the arguments. -/
def parameters : Json :=
  Tool.schema
    [Tool.textProperty "sql_id" "SQL template id",
     Tool.textProperty "params" "key1=value1,key2=value2",
     Tool.textProperty "raw_sql" "Optional SQL to run directly, overrides sql_id"]
    []

/-- The tool of a source of data. -/
def tool (q : Query) : Tool Desk :=
  { name := toolName, description := q.description, parameters
    run := Tool.atOnce fun args => do return (← q.execute args).mapError Failure.message }

end Query

end TriageDesk
