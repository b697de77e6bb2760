import RiskDecision.Config.File
import RiskDecision.Config.Place

/-!
# Configuration of the program

The configuration is merged from defaults, three files and the environment, each of which may
override what came before: `default.toml`, a file for the environment such as `production.toml`, a
file for the service, and variables that begin with `FRAUD_`. In the name of a variable two
underscores lead into a table, as in `FRAUD_ENGINE__TRACE`.
-/

namespace RiskDecision

/-- Where catalogs come from. -/
structure CatalogSource where
  /-- The directory of the catalog files. -/
  directory : String := "catalogs"
  /-- A file with a configuration payload. -/
  bundleFile : Option String := none
  /-- Catalog files are loaded again when they change. -/
  watch : Bool := false
  debounceMillis : Nat := 2000
  deriving Repr

/-- Logging and the export of metrics. -/
structure Observability where
  serviceName : String := "unknown-service"
  logLevel : String := "info"
  jsonLogs : Bool := false
  metricsEnabled : Bool := false
  metricsPort : Nat := 9090
  deriving Repr

/-- The configuration of the program. -/
structure AppConfig where
  serviceName : String := ""
  environment : String := ""
  engine : Settings := {}
  catalog : CatalogSource := {}
  observability : Observability := {}
  deriving Repr

namespace CatalogSource

/-- Reads the section; a field that is absent has its default. -/
def read {σ ε : Type} (r : Reader σ ε) (source : σ) : Except ε CatalogSource := do
  let get ← r.fields ["dir", "bundle_file", "watch", "debounce_ms"] source
  let base : CatalogSource := {}
  return {
    directory := ← Reader.orDefault base.directory r.text (get "dir")
    bundleFile := ← Reader.orDefault base.bundleFile r.optionalText (get "bundle_file")
    watch := ← Reader.orDefault base.watch r.bool (get "watch")
    debounceMillis := ← Reader.orDefault base.debounceMillis (r.nat 64) (get "debounce_ms") }

end CatalogSource

namespace Observability

/-- Reads the section; a field that is absent has its default. -/
def read {σ ε : Type} (r : Reader σ ε) (source : σ) : Except ε Observability := do
  let get ← r.fields
    ["service_name", "log_level", "json_logs", "metrics_enabled", "metrics_port"] source
  let base : Observability := {}
  return {
    serviceName := ← Reader.orDefault base.serviceName r.text (get "service_name")
    logLevel := ← Reader.orDefault base.logLevel r.text (get "log_level")
    jsonLogs := ← Reader.orDefault base.jsonLogs r.bool (get "json_logs")
    metricsEnabled := ← Reader.orDefault base.metricsEnabled r.bool (get "metrics_enabled")
    metricsPort := ← Reader.orDefault base.metricsPort (r.nat 16) (get "metrics_port") }

end Observability

namespace AppConfig

/-- Reads a configuration; a field that is absent has its default. -/
def read {σ ε : Type} (r : Reader σ ε) (source : σ) : Except ε AppConfig := do
  let get ← r.fields ["service_name", "environment", "engine", "catalog", "observability"] source
  let base : AppConfig := {}
  return {
    serviceName := ← Reader.orDefault base.serviceName r.text (get "service_name")
    environment := ← Reader.orDefault base.environment r.text (get "environment")
    engine := ← Reader.orDefault base.engine (Settings.read r) (get "engine")
    catalog := ← Reader.orDefault base.catalog (CatalogSource.read r) (get "catalog")
    observability :=
      ← Reader.orDefault base.observability (Observability.read r) (get "observability") }

/-- The program runs for real. -/
def isProduction (c : AppConfig) : Bool := c.environment == "production"

/-- The configuration with another name for the service in logs and metrics. -/
def withServiceName (c : AppConfig) (name : String) : AppConfig :=
  { c with observability := { c.observability with serviceName := name } }

/-- The beginning of the names of variables that override configuration files. -/
def variableStart : String := "fraud_"

/-- The variable that names the environment. -/
def environmentVariable : String := "FRAUD_ENV"

/-- The environment where none is named. -/
def defaultEnvironment : String := "development"

/-- The environment that the program runs in. -/
def environmentOf (vars : List (String × String)) : String :=
  (vars.lookup environmentVariable).getD defaultEnvironment

/-- The keys whose values are lists. -/
def listKeys : List String := ["engine.clamp_domains", "engine.root_aliases"]

/-- Every two underscores made one point. -/
def pointedChars : List Char → List Char
  | '_' :: '_' :: cs => '.' :: pointedChars cs
  | c :: cs => c :: pointedChars cs
  | [] => []

/-- The key that a variable sets, if it sets any. -/
def variableKey? (name : String) : Option String :=
  (Text.after? variableStart (Text.lower name)).map fun rest =>
    String.ofList (pointedChars rest.toList)

/-- An integer of 64 bits in base ten. -/
def intOfText? (s : String) : Option Int :=
  let (negative, digits) := Decimal.takeSign s.toList
  Setting.intOfDigits? negative digits

/-- The value of a variable: a truth value, integer or number if it reads as one, otherwise a list
for the keys that have lists, and text for all others. -/
def variableValue (key value : String) : Setting :=
  match Text.lower value, intOfText? value, Decimal.read? value with
  | "true", _, _ => .bool true
  | "false", _, _ => .bool false
  | _, some n, _ => .int n
  | _, _, some x => .float x
  | _, _, _ =>
    if listKeys.contains key then .list ((Text.split ',' value).map .text) else .text value

/-- Merges a variable, if it is one that sets anything. -/
def mergeVariable (s : Setting) (v : String × String) : Setting :=
  match variableKey? v.1 with
  | none => s
  | some key => s.mergeKey key (variableValue key v.2)

/-- Merges a configuration file, if it is there. The keys of its top entries are places. -/
def mergeFile (look : String → Option Entry) (s : Setting) (name : String) :
    Except ConfigFault Setting := do
  let entries ← ConfigFile.read look name
  return entries.foldl (fun s e => s.mergeKey e.1 e.2) s

/-- The names of the configuration files in the order in which they are merged. -/
def fileNames (service environment : String) : List String :=
  ["default.toml", environment ++ ".toml", service ++ ".toml"]

/-- Loads the configuration of a service from files of the configuration directory and variables. -/
def load (service : String) (vars : List (String × String))
    (look : String → Option Entry) : Except ConfigFault AppConfig := do
  let environment := environmentOf vars
  let start := ((Setting.table []).put "service_name" (.text service)).put "environment"
    (.text environment)
  let files ← (fileNames service environment).foldlM (mergeFile look) start
  read Setting.reader (vars.foldl mergeVariable files)

end AppConfig

end RiskDecision
