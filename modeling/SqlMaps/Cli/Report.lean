import SqlMaps.Cli.Json
import SqlMaps.Migration.Basic

/-! What the commands print: the state of a database and the account of a migration,
as lines for reading or as JSON. -/
namespace SqlMaps.Cli

/-- Names in a row. -/
def commaSeparated (names : List String) : String :=
  ", ".intercalate names

/-- A number in decimal. -/
def number (n : Nat) : String :=
  Number.intText n

/-- The state of a database. -/
structure Status where
  path : String
  version : Int64
  tables : List TableSnapshot

/-- The state as lines. -/
def Status.lines (s : Status) : List String :=
  ["Database: " ++ s.path,
    "  user_version: " ++ Number.intText s.version.toInt,
    "  Tables: " ++ number s.tables.length] ++
  s.tables.map fun t =>
    "    " ++ t.name ++ " (" ++ number t.rowCount ++ " rows): " ++ commaSeparated t.columns

/-- A table as JSON. -/
def tableJson (t : TableSnapshot) : Json :=
  .object ["name", "columns", "row_count"]
    [.text t.name, .list (t.columns.map .text), .number t.rowCount]

/-- The state as JSON. -/
def Status.json (s : Status) : Json :=
  .object ["database", "user_version", "tables"]
    [.text s.path, .number s.version.toInt, .list (s.tables.map tableJson)]

/-- The account of a migration as lines. -/
def reportLines (r : MigrationReport) : List String :=
  let old := Number.intText r.oldVersion.toInt
  let new := Number.intText r.newVersion.toInt
  match r.status with
  | .upToDate =>
    ["Database is up to date (old version " ++ old ++ ", new version " ++ new ++ ")."]
  | .migrated =>
    ["Migration complete (version " ++ old ++ " -> " ++ new ++ "):",
      "  Tables migrated: " ++ number r.tables,
      "  Rows inserted: " ++ number r.inserted,
      "  Rows updated: " ++ number r.updated,
      "  Rows skipped: " ++ number r.skipped] ++
    (if r.skippedTables.isEmpty then []
      else ["  Tables skipped: " ++ commaSeparated r.skippedTables]) ++
    ["  Committed: " ++ if r.committed then "yes" else "no"]

/-- The account of a migration as JSON. -/
def reportJson (r : MigrationReport) : Json :=
  .object
    ["status", "old_version", "new_version", "tables", "skipped_tables", "inserted", "updated",
      "skipped", "committed"]
    [.text r.status.name, .number r.oldVersion.toInt, .number r.newVersion.toInt,
      .number r.tables, .list (r.skippedTables.map .text), .number r.inserted,
      .number r.updated, .number r.skipped, .flag r.committed]

end SqlMaps.Cli
