import SqlMaps.Config.Error
import SqlMaps.Sql.TransactionMode
import SqlMaps.Yaml.Reader
import SqlMaps.Yaml.Writer

/-! Settings of a database: where it and its templates are, and how it is opened. -/
namespace SqlMaps

/-- Where a database and its templates are, and how it is opened. -/
structure Settings where
  /-- The path of the database file. -/
  database : String
  /-- The directory of the templates, if there is one. -/
  templates : Option String
  /-- The mode of the transactions that a session begins on its own. -/
  mode : TransactionMode
  /-- How many milliseconds a locked file is waited for. -/
  busyTimeout : Nat
  readOnly : Bool
  deriving DecidableEq

namespace Settings

/-- The settings of a database with nothing else given. -/
def ofPath (database : String) : Settings :=
  ⟨database, none, .immediate, 5000, false⟩

/-- Refuses a database without a path. -/
def validate (s : Settings) : Except ConfigError Unit :=
  if s.database = "" then .error (.invalid .emptyDatabasePath) else .ok ()

/-- A mode by its name. -/
def modeOf? (d : Yaml.Document) (node : Yaml.Node) : Option TransactionMode := do
  TransactionMode.ofName? (← d.word? node)

/-- The settings that a document holds. The database has to be given; names that are no
setting are passed over. -/
def ofDocument? (d : Yaml.Document) : Option Settings := do
  let entries ← d.entries? d.root
  let initial := ofPath ""
  return {
    database := ← Yaml.readField entries "database" none d.text?
    templates := ← Yaml.readField entries "templates" (some initial.templates) d.optionalText?
    mode := ← Yaml.readField entries "transaction_mode" (some initial.mode) (modeOf? d)
    busyTimeout := ← Yaml.readField entries "busy_timeout_ms" (some initial.busyTimeout) d.nat64?
    readOnly := ← Yaml.readField entries "read_only" (some initial.readOnly) d.flag? }

/-- Reads settings, and checks them. -/
def ofYaml (text : String) : Except ConfigError Settings :=
  match (Yaml.read text).bind ofDocument? with
  | none => .error .yaml
  | some s => do
    s.validate
    return s

/-- The settings as YAML. -/
def toYaml (s : Settings) : String :=
  let templates := match s.templates with
    | none => Yaml.wordValue "null"
    | some path => Yaml.textValue 0 path
  String.ofList <|
    Yaml.entry 0 "database" (Yaml.textValue 0 s.database) ++
    Yaml.entry 0 "templates" templates ++
    Yaml.entry 0 "transaction_mode" (Yaml.wordValue s.mode.name) ++
    Yaml.entry 0 "busy_timeout_ms" (Yaml.wordValue (Number.intText s.busyTimeout)) ++
    Yaml.entry 0 "read_only" (Yaml.wordValue (if s.readOnly then "true" else "false"))

end Settings

end SqlMaps
