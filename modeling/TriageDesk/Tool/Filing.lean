/-
TriageDesk.Tool.Filing — recommendations filed by the model.

A call gives the type and the title of a proposal, and may give a summary,
details and parameters. Everything is checked before anything is stored; the
proposal is always a new pending one with the usual actions, whatever else
the call says.

Follows `ProposalTool`, the tool `create_proposal`: `file` is `execute`, and
`required`, `details` and `parameters` are `required_str`, `parse_details` and
`parse_parameters`.
-/
import TriageDesk.Desk
import TriageDesk.Proposal.Wire
import TriageDesk.Tool.Basic

namespace TriageDesk.Filing

open Text

/-- The name of the tool. -/
def toolName : String := "create_proposal"

/-- Why nothing was filed. -/
inductive Failure
  | missing (name : String)
  | badParameter (m : Json.Mismatch)
deriving DecidableEq, Repr

/-- A failure in words. -/
def Failure.message : Failure → String
  | .missing name => s!"{name} is required"
  | .badParameter m => s!"invalid parameter: {m.message}"

/-! ## What is filed -/

/-- A text that has to be given, without white space at its ends. -/
def required (args : Json) (name : String) : Except Failure String :=
  match ((args.textMember? name).map trimmed).filter (· ≠ "") with
  | some text => .ok text
  | none => .error (.missing name)

/-- The members of an object as a table. -/
def table? : Json → Option (Table Json)
  | .object members => some (Table.ofList members)
  | _ => none

/-- The details: an object, or a text, which may hold an object and is otherwise
kept as it is. -/
def details : Option Json → Table Json
  | some (.object members) => Table.ofList members
  | some (.string s) =>
    if s = "" then ∅
    else ((Json.parse? s).bind table?).getD (Table.ofList [("content", .string s)])
  | _ => ∅

/-- The parameters: a list of them, or names with values. -/
def parameters : Option Json → Except Failure (List Proposal.Param)
  | some (.array items) =>
    items.mapM fun v => (Proposal.Param.decoder.ofValue v).mapError .badParameter
  | given =>
    .ok ((Parameters.ofJson? given).entries.map fun (key, value) => .ofValue key value)

/-- What a call asks to be filed. -/
structure Form where
  kind : String
  title : String
  summary : String
  details : Table Json
  parameters : List Proposal.Param

/-- Reads the arguments of a call. -/
def Form.read (args : Json) : Except Failure Form := do
  let kind ← required args "type"
  let title ← required args "title"
  return { kind, title
           summary := (args.textMember? "summary").getD ""
           details := Filing.details (args.member? "details")
           parameters := ← Filing.parameters (args.member? "parameters") }

/-- The proposal of a form. -/
def Form.proposal (f : Form) (now : Time.Instant) : Proposal :=
  let p := Proposal.new f.kind f.title f.summary f.details now
  f.parameters.foldl Proposal.withParam (Proposal.defaultActions.foldl Proposal.withAction p)

/-- Files the proposal that the arguments of a call describe. The result is its
id. -/
def file (args : Json) : Act Desk (Except Failure String) := do
  match Form.read args with
  | .error f => return .error f
  | .ok form => return .ok (← Desk.createProposal (form.proposal (← Desk.now)))

/-! ## The tool -/

/-- What the model is told of the tool. -/
def description : String :=
  "Create a proposal for human review instead of applying a disposal directly. Args: \x7b\"type\": \"risk|weak|api_biz|app\", \"title\": \"short title\", \"summary\": \"why\", \"details\": \x7b..\x7d, \"parameters\": \"key1=value1,key2=value2\"\x7d"

/-- The schema of the arguments. -/
def schema : Json :=
  Tool.schema
    [Tool.textProperty "type" none, Tool.textProperty "title" none,
     Tool.textProperty "summary" none,
     ("details", .ofMembers [("type", .string "object")]),
     Tool.textProperty "parameters"
       "key1=value1,key2=value2 or an array of \x7bkey,label,type,value,options\x7d"]
    ["type", "title"]

/-- What the model is told of the outcome. -/
def present : Except Failure String → Except String String
  | .ok id => .ok s!"Proposal created: id={id}"
  | .error f => .error f.message

/-- The tool that files proposals. -/
def tool : Tool Desk :=
  { name := toolName, description, parameters := schema
    run := Tool.atOnce fun args => do return present (← file args) }

end TriageDesk.Filing
