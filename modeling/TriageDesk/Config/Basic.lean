/-
TriageDesk.Config.Basic — the configuration of the desk.

Every section has defaults, so an empty configuration is a valid one.

Follows `AppConfig` with its sections, their defaults and the two functions
`base_url`.
-/
import TriageDesk.Activity.Basic
import TriageDesk.Config.Decoder
import TriageDesk.Endpoint

namespace TriageDesk

open Text

/-! ## Sections -/

/-- The application. -/
structure Config.App where
  name : String
  /-- How many messages of a session are kept. -/
  maxHistory : Nat
deriving DecidableEq, Repr

/-- The model that reasons. -/
structure Config.Model where
  provider : String
  model : String
  baseUrl : Option String
  /-- The variable of the environment that holds the key. -/
  keyVariable : Option String
  maxSteps : Nat
deriving DecidableEq, Repr

/-- The source of the queries. -/
structure Config.Clickhouse where
  addr : String
  username : String
  password : String
deriving DecidableEq, Repr

/-- The server of the disposals. -/
structure Config.Sheikah where
  baseUrl : String
  apiKey : String
deriving DecidableEq, Repr

/-- The service: its servers, its activities, and what is added to the catalog. -/
structure Config.Operations where
  enabled : Bool
  clickhouse : Config.Clickhouse
  sheikah : Config.Sheikah
  /-- The activities by name; the name in an activity itself is not filled in. -/
  activities : Table Activity
  queries : Table String
  endpoints : Table Endpoint

/-- The pages. -/
structure Config.Web where
  host : String
  port : Nat
deriving DecidableEq, Repr

/-- The configuration of the desk. -/
structure Config where
  app : Config.App
  model : Config.Model
  /-- How many seconds a call of a tool may take. -/
  toolTimeout : Nat
  operations : Config.Operations
  web : Config.Web

namespace Config

/-! ## Defaults -/

/-- Where the source of the queries is found. -/
def usualClickhouse : String := "localhost:8123"

/-- Where the server of the disposals is found. -/
def usualSheikah : String := "http://localhost:8080"

/-- The configuration in which nothing is set. -/
def default : Config :=
  { app := ⟨"secops", 40⟩
    model := ⟨"openai", "deepseek-chat", some "https://api.deepseek.com/v1", none, 12⟩
    toolTimeout := 60
    operations := ⟨true, ⟨usualClickhouse, "", ""⟩, ⟨usualSheikah, ""⟩, ∅, ∅, ∅⟩
    web := ⟨"0.0.0.0", 18789⟩ }

/-- The address of the source of the queries; without a scheme it is one of the web. -/
def Clickhouse.url (c : Clickhouse) : String :=
  let addr := if allBlank c.addr then usualClickhouse else trimmed c.addr
  if startsWith "http://".toList addr.toList || startsWith "https://".toList addr.toList then addr
  else "http://" ++ addr

/-- The address of the server of the disposals. -/
def Sheikah.url (s : Sheikah) : String :=
  if allBlank s.baseUrl then usualSheikah else trimmed s.baseUrl

/-- The activities, in the order of their names. -/
def Operations.named (o : Operations) : List Activity :=
  o.activities.entries.map fun (name, a) => { a with name }

/-! ## Reading -/

/-- Reads the section of the application. -/
def App.decoder : Decoder App :=
  record "AppSection"
    [.optional "name" text fun x a => { a with name := x },
     .optional "max_history_messages" natural fun x a => { a with maxHistory := x }]
    default.app

/-- Reads the section of the model. -/
def Model.decoder : Decoder Model :=
  record "LlmSection"
    [.optional "provider" text fun x m => { m with provider := x },
     .optional "model" text fun x m => { m with model := x },
     .optional "base_url" (option text) fun x m => { m with baseUrl := x },
     .optional "api_key_env" (option text) fun x m => { m with keyVariable := x },
     .optional "max_steps" natural fun x m => { m with maxSteps := x }]
    default.model

/-- Reads the section of the tools. -/
def toolsDecoder : Decoder Nat :=
  record "ToolsSection" [.optional "tool_timeout_secs" natural fun x _ => x] default.toolTimeout

/-- Reads the section of the source of the queries. -/
def Clickhouse.decoder : Decoder Clickhouse :=
  record "ClickHouseSection"
    [.optional "addr" text fun x c => { c with addr := x },
     .optional "username" text fun x c => { c with username := x },
     .optional "password" text fun x c => { c with password := x }]
    default.operations.clickhouse

/-- Reads the section of the server of the disposals. -/
def Sheikah.decoder : Decoder Sheikah :=
  record "SheikahSection"
    [.optional "base_url" text fun x s => { s with baseUrl := x },
     .optional "api_key" text fun x s => { s with apiKey := x }]
    default.operations.sheikah

/-- Reads an activity, which has no name yet. -/
def activityDecoder : Decoder Activity :=
  record "ActivityConfig"
    [.optional "schedule" text fun x a => { a with schedule := x },
     .optional "mode" (choice "ActivityMode" Activity.Mode.named) fun x a => { a with mode := x },
     .optional "enabled" truth fun x a => { a with enabled := x }]
    ⟨"", "30m", .manual, true⟩

/-- Reads an endpoint. -/
def endpointDecoder : Decoder Endpoint :=
  record "ApiEndpoint"
    [.needed "method" text fun x e => { e with method := x },
     .needed "path" text fun x e => { e with path := x },
     .optional "body" text fun x e => { e with body := x }]
    ⟨"", "", ""⟩

/-- Reads the section of the service. -/
def Operations.decoder : Decoder Operations :=
  record "SecOpsSection"
    [.optional "enabled" truth fun x o => { o with enabled := x },
     .optional "clickhouse" Clickhouse.decoder fun x o => { o with clickhouse := x },
     .optional "sheikah" Sheikah.decoder fun x o => { o with sheikah := x },
     .optional "activities" (table activityDecoder) fun x o => { o with activities := x },
     .optional "queries" (table text) fun x o => { o with queries := x },
     .optional "apis" (table endpointDecoder) fun x o => { o with endpoints := x }]
    default.operations

/-- Reads the section of the pages. -/
def Web.decoder : Decoder Web :=
  record "WebSection"
    [.optional "host" text fun x w => { w with host := x },
     .optional "port" natural16 fun x w => { w with port := x }]
    default.web

/-- Reads a configuration. -/
def decoder : Decoder Config :=
  record "AppConfig"
    [.optional "app" App.decoder fun x c => { c with app := x },
     .optional "llm" Model.decoder fun x c => { c with model := x },
     .optional "tools" toolsDecoder fun x c => { c with toolTimeout := x },
     .optional "secops" Operations.decoder fun x c => { c with operations := x },
     .optional "web" Web.decoder fun x c => { c with web := x }]
    default

end Config

end TriageDesk
