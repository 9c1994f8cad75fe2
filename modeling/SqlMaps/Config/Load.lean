import SqlMaps.Config.RetentionFile
import SqlMaps.Config.Settings
import SqlMaps.Files.Basic

/-! Loading settings from files. -/
namespace SqlMaps

/-- The text of a settings file. A file that is there and cannot be read as text is no
YAML. -/
def Files.readSettings (files : Files) (path : String) : Except ConfigError String :=
  match files.readText path with
  | .ok text => .ok text
  | .error .missing => .error (.file .missing)
  | .error .notDirectory => .error (.file .notDirectory)
  | .error .tooLong => .error (.file .tooLong)
  | .error .directory => .error .yaml
  | .error .notText => .error .yaml

/-- Loads the settings of a database. -/
def Settings.load (files : Files) (path : String) : Except ConfigError Settings := do
  Settings.ofYaml (← files.readSettings path)

/-- Loads retention settings. -/
def Retention.load (files : Files) (path : String) : Except ConfigError Retention := do
  Retention.ofYaml (← files.readSettings path)

end SqlMaps
