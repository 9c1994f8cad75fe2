import SqlMaps.Files.Error
import SqlMaps.Markup.Event

/-! Why settings or templates cannot be loaded. -/
namespace SqlMaps

/-- A setting that cannot be meant. -/
inductive InvalidSetting where
  | emptyDatabasePath
  | emptyIgnoredTable
  | emptyColumnTable
  | emptyIgnoredColumn (table : String)
  | namelessTemplate (path : String)
  /-- A fault reported in its own words. -/
  | reported (text : String)
  deriving DecidableEq

/-- The wording of an invalid setting. -/
def InvalidSetting.message : InvalidSetting → String
  | .emptyDatabasePath => "database path must not be empty"
  | .emptyIgnoredTable => "ignore_tables contains an empty table name"
  | .emptyColumnTable => "ignore_columns contains an empty table name"
  | .emptyIgnoredColumn table => "ignore_columns." ++ table ++ " contains an empty column name"
  | .namelessTemplate path => "template path has no name: " ++ path
  | .reported text => text

/-- Why settings or templates cannot be loaded. -/
inductive ConfigError where
  | file (cause : FileError)
  /-- The text is no YAML, or not of the wanted shape. -/
  | yaml
  | invalid (setting : InvalidSetting)
  | templateNotFound (name : String)
  | malformedTemplate (path : String) (cause : Markup.Error)
  deriving DecidableEq

/-- The wording of an error. -/
def ConfigError.message : ConfigError → String
  | .file cause => "I/O error: " ++ cause.message
  | .yaml => "YAML error"
  | .invalid setting => "invalid config: " ++ setting.message
  | .templateNotFound name => "template not found: " ++ name
  | .malformedTemplate path cause => "malformed template " ++ path ++ ": " ++ cause.message

end SqlMaps
