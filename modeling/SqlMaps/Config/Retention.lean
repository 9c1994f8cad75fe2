import SqlMaps.Config.Disposition
import SqlMaps.Config.Error
import SqlMaps.Keyed
import SqlMaps.Text.Blank

/-! Settings that say what of an old database is kept. -/
namespace SqlMaps

/-- What is kept of an old database: some tables and columns are left behind, and the
rows of a table are skipped, added, or written over the rows with their ids. -/
structure Retention where
  ignoredTables : List String
  /-- The columns left behind, by table. -/
  ignoredColumns : Keyed String (List String)
  /-- The disposition of tables without one of their own. -/
  defaultDisposition : Disposition
  tableDispositions : Keyed String Disposition
  deriving DecidableEq

namespace Retention

/-- Everything is kept, and written over the rows with the same ids. -/
def default : Retention := ⟨[], [], .update, []⟩

/-- The table name that stands for every table. -/
def anyTable : String := "*"

/-- Whether a table is left behind. -/
def ignoresTable (r : Retention) (table : String) : Bool :=
  r.ignoredTables.contains table

/-- Whether a column is left behind, in its table or in every table. -/
def ignoresColumn (r : Retention) (table column : String) : Bool :=
  [table, anyTable].any fun key =>
    (r.ignoredColumns.lookup key).any (·.contains column)

/-- What becomes of the rows of a table. -/
def disposition (r : Retention) (table : String) : Disposition :=
  (r.tableDispositions.lookup table).getD r.defaultDisposition

/-- Whether a name is missing: empty, or nothing but white space. -/
def missingName (name : String) : Bool :=
  Text.allBlank name.toList

/-- Refuses columns without a name, and columns of a table without a name. -/
def validateColumns (entry : String × List String) : Except ConfigError Unit :=
  if missingName entry.1 then .error (.invalid .emptyColumnTable)
  else if entry.2.any missingName then .error (.invalid (.emptyIgnoredColumn entry.1))
  else .ok ()

/-- Refuses names that are missing. -/
def validate (r : Retention) : Except ConfigError Unit :=
  if r.ignoredTables.any missingName then .error (.invalid .emptyIgnoredTable)
  else r.ignoredColumns.forM validateColumns

end Retention

end SqlMaps
