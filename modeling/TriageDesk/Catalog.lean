/-
TriageDesk.Catalog — the queries and disposal endpoints that come built in,
and how a configuration changes them.

A configuration replaces an entry by giving one of the same name and adds
entries under new names. What it gives is checked first: a query is not
blank, and an endpoint is sound.

Follows `default_queries`, `default_apis`, `merged_queries` and `merged_apis`,
here `queriesWith` and `endpointsWith`, and `validate_overrides`, here
`refusal?`.
-/
import TriageDesk.Endpoint

namespace TriageDesk.Catalog

/-! ## Built-in queries -/

/-- The built-in queries by name. -/
def builtinQueries : Table String := Table.ofList [
  ("pending_risk_events",
    "SELECT risk, host, content, ts FROM risk_events WHERE status = 'pending' ORDER BY ts DESC LIMIT $batch_size"),
  ("pending_weak_events",
    "SELECT weak_name, host, method, url, channel FROM weak_events WHERE status = 'pending' ORDER BY ts DESC LIMIT $batch_size"),
  ("access_by_ip",
    "SELECT ip, ts, method, url, status, req_risk FROM access WHERE ip = '$ip' AND ts > now() - INTERVAL 1 DAY ORDER BY ts DESC LIMIT 30"),
  ("access_by_user",
    "SELECT ip, ts, method, url, status, req_risk FROM access WHERE uid = '$user_id' AND ts > now() - INTERVAL 1 DAY ORDER BY ts DESC LIMIT 30"),
  ("access_by_device",
    "SELECT ip, ts, method, url, status, req_risk FROM access WHERE sid = '$device_id' AND ts > now() - INTERVAL 1 DAY ORDER BY ts DESC LIMIT 30"),
  ("http_details",
    "SELECT req, res FROM access_raw WHERE id = '$id' LIMIT 3"),
  ("risk_top20",
    "SELECT risk, host, content, type, count() as cnt FROM risk_events WHERE ts > today() AND status = 'pending' GROUP BY risk, host, content, type ORDER BY cnt DESC LIMIT 20"),
  ("weak_http_sample",
    "SELECT req, res FROM weak WHERE weak_name = '$weak_name' AND channel = '$channel' AND method = '$method' AND url = '$url' LIMIT 1"),
  ("pending_api_list",
    "SELECT method, host, url, req, res, biz_type, channel FROM api_sample WHERE analyzed = 0 LIMIT $batch_size"),
  ("api_sample",
    "SELECT method, host, url, req, res FROM api_sample WHERE host = '$host' AND url = '$url' LIMIT 1"),
  ("pending_app_list",
    "SELECT app_id, host, api_list FROM app_sample WHERE analyzed = 0 LIMIT $batch_size"),
  ("app_api_list",
    "SELECT api_list FROM app_sample WHERE app_id = '$app_id' LIMIT 1")]

/-! ## Built-in endpoints -/

/-- The body that names the risk to be confirmed or ignored. -/
def riskBody : String :=
  "[\x7b\"content\": \"$content\", \"host\": \"$host\", \"risk\": \"$risk\", \"note\": \"$note\"\x7d]"

/-- The built-in endpoints by name. -/
def builtinEndpoints : Table Endpoint := Table.ofList [
  ("confirm_risk", ⟨"POST", "/risk/confirm",
    riskBody⟩),
  ("ignore_risk", ⟨"POST", "/risk/filter",
    riskBody⟩),
  ("confirm_weak", ⟨"POST", "/apiweak/manage/batch",
    "\x7b\"tag\": \"todo\", \"apiWeakMgts\": [\x7b\"defectId\": \"$weak_name\", \"host\": \"$host\", \"method\": \"$method\", \"url\": \"$url\"\x7d], \"message\": \"$note\"\x7d"⟩),
  ("ignore_weak", ⟨"POST", "/apiweak/manage/batch",
    "\x7b\"tag\": \"ignore\", \"apiWeakMgts\": [\x7b\"defectId\": \"$weak_name\", \"host\": \"$host\", \"method\": \"$method\", \"url\": \"$url\"\x7d], \"message\": \"$note\"\x7d"⟩),
  ("create_business", ⟨"POST", "/antibot/api_data_property",
    "\x7b\"method\": \"$method\", \"path\": \"$path\", \"host\": \"$host\", \"bizType\": 0, \"bizDesc\": \"$biz_desc\", \"bizLevel\": $biz_level, \"bizName\": \"$biz_name\", \"mode\": 1, \"ruleSet\": []\x7d"⟩),
  ("save_api_analysis", ⟨"POST", "/antibot/internal_api/api_analysis",
    "\x7b\"host\": \"$host\", \"method\": \"$method\", \"path\": \"$path\", \"biz_analysis\": \"$biz_analysis\", \"importance_analysis\": \"$importance_analysis\", \"param_analysis\": \"$param_analysis\", \"importance\": \"$importance\", \"skip_if_exist\": true\x7d"⟩),
  ("create_app", ⟨"POST", "/antibot/internal_app",
    "\x7b\"name\": \"$app_name\", \"domainList\": [\"$host\"], \"urlPrefix\": \"/\", \"isMirror\": true, \"desc\": \"$app_desc\"\x7d"⟩),
  ("update_app", ⟨"PUT", "/antibot/internal_app/$app_id",
    "\x7b\"desc\": \"$app_desc\"\x7d"⟩),
  ("create_proposal", ⟨"POST", "/secops/proposal",
    "\x7b\"type\": \"$type\", \"title\": \"$title\", \"content\": \"$content\", \"data\": $data\x7d"⟩)]

/-! ## Changes by a configuration -/

/-- Why an entry of a configuration is refused. -/
inductive Refusal
  | emptyQuery (name : String)
  | endpoint (name : String) (defect : Endpoint.Defect)
deriving DecidableEq, Repr

/-- A refusal in words. -/
def Refusal.message : Refusal → String
  | .emptyQuery name => s!"secops.queries.{name}: empty SQL"
  | .endpoint name defect => s!"secops.apis.{name}: {defect.message}"

/-- The first entry that is refused: queries before endpoints, each in the order
of their names. -/
def refusal? (queries : Table String) (endpoints : Table Endpoint) : Option Refusal :=
  match queries.entries.find? fun e => Text.allBlank e.2 with
  | some (name, _) => some (.emptyQuery name)
  | none => endpoints.entries.findSome? fun (name, e) => e.defect?.map (.endpoint name)

/-- The queries with those of a configuration. -/
def queriesWith (own : Table String) : Table String := builtinQueries.override own

/-- The endpoints with those of a configuration. -/
def endpointsWith (own : Table Endpoint) : Table Endpoint := builtinEndpoints.override own

end TriageDesk.Catalog
