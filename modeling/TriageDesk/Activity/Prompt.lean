/-
TriageDesk.Activity.Prompt — what the model is told to do in an activity.

Some names have an instruction of their own; any other name gets a general
one. How to act on the findings, directly or by filing proposals, is added
at the end.

Follows `ActivityKind` with its templates, `mode_instruction` and
`build_activity_prompt`, here `prompt`.
-/
import TriageDesk.Activity.Basic

namespace TriageDesk.Activity

/-- The kinds of activity that have an instruction of their own. -/
inductive Kind
  | risk
  | weakness
  | api
  | app
deriving DecidableEq, Repr

/-- All kinds. -/
def Kind.all : List Kind := [.risk, .weakness, .api, .app]

/-- The name of the activities of a kind. -/
def Kind.name : Kind → String
  | .risk => "risk_analysis"
  | .weakness => "weak_analysis"
  | .api => "api_biz_explain"
  | .app => "app_explain"

/-- The kind of the activities of a name. -/
def Kind.ofName? (name : String) : Option Kind := Kind.all.find? fun k => k.name = name

/-- The instruction of a kind. -/
def Kind.instruction : Kind → String
  | .risk =>
    "Run the risk event triage:\n" ++
    "1. Use the query_data tool to fetch pending risk events (sql_id: pending_risk_events, params: batch_size=5)\n" ++
    "2. Trace each event back through related access records (access_by_ip / access_by_user / access_by_device) and raw HTTP messages (http_details)\n" ++
    "3. Decide whether each event is a real risk\n" ++
    "4. Confirm or ignore it according to the execution mode below\n" ++
    "\n" ++
    "Start the risk triage now."
  | .weakness =>
    "Run the weakness event analysis:\n" ++
    "1. Use the query_data tool to fetch pending weakness events (sql_id: pending_weak_events, params: batch_size=5)\n" ++
    "2. Fetch the HTTP traffic that triggered each weakness (weak_http_sample)\n" ++
    "3. Decide whether it is a false positive\n" ++
    "4. Confirm or ignore it according to the execution mode below\n" ++
    "\n" ++
    "Start the weakness analysis now."
  | .api =>
    "Run the API business analysis:\n" ++
    "1. Use the query_data tool to fetch APIs awaiting analysis (sql_id: pending_api_list, params: batch_size=3)\n" ++
    "2. Fetch a request/response sample for each API (api_sample)\n" ++
    "3. Explain the business meaning, parameters and importance level\n" ++
    "4. Create the business entry and save the analysis (create_business / save_api_analysis)\n" ++
    "\n" ++
    "Start the API business analysis now."
  | .app =>
    "Run the application identification:\n" ++
    "1. Use the query_data tool to fetch applications awaiting identification (sql_id: pending_app_list, params: batch_size=3)\n" ++
    "2. Fetch the API list of each application (app_api_list)\n" ++
    "3. Infer the application name and business description\n" ++
    "4. Create or update the application (create_app / update_app)\n" ++
    "\n" ++
    "Start the application identification now."

/-- How the findings are acted on. -/
def Mode.instruction : Mode → String
  | .auto =>
    "Execution mode: auto. Apply your decisions directly with the sheikah_api tool."
  | .manual =>
    "Execution mode: manual. Do NOT call disposal APIs directly; file each recommendation " ++
    "with the create_proposal tool so a human can accept, ignore or adjust it."

/-- The instruction for the activities of a name. -/
def instruction (name : String) : String :=
  match Kind.ofName? name with
  | some kind => kind.instruction
  | none => s!"Run the security operations activity: {name}"

/-- What the model is told to do in an activity of a name and a mode. -/
def prompt (name : String) (mode : Mode) : String :=
  instruction name ++ "\n\n" ++ mode.instruction

end TriageDesk.Activity
