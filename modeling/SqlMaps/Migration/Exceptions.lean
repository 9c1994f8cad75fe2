import SqlMaps.Migration.Policy

/-! Policies given by exceptions: everything is kept but what is listed. -/
namespace SqlMaps

/-- A column that is not written, whatever its value or with one value only. -/
structure DeniedColumn where
  table : String
  column : String
  value : Option Value

/-- Rows that are treated otherwise: of one table or of all, and with a value in a
column or with any. -/
structure RowRule where
  table : Option String
  column : Option String
  value : Value
  disposition : Disposition

/-- The exceptions of a policy. -/
structure Exceptions where
  ignoredTables : List String
  ignoredColumns : List (String × String)
  /-- Tables that are not copied between two versions. -/
  deniedTables : List (String × Int64 × Int64)
  deniedColumns : List DeniedColumn
  /-- The first rule that is for a row decides. -/
  rowRules : List RowRule

namespace Exceptions

/-- Whether a column is denied with the value. -/
def denies (d : DeniedColumn) (table column : String) (value : Value) : Bool :=
  d.table == table && d.column == column && d.value.all value.equals

/-- Whether a rule is for a row. -/
def isFor (r : RowRule) (table : String) (row : Record) : Bool :=
  r.table.all (· == table) &&
    r.column.all fun column => (row.value? (.named column)).any (·.equals r.value)

/-- The policy with the exceptions. -/
def policy (e : Exceptions) : RetentionPolicy where
  ignoresTable table := e.ignoredTables.contains table
  ignoresColumn table column := e.ignoredColumns.contains (table, column)
  savesTable table old new := !e.deniedTables.contains (table, old, new)
  disposition table row _ _ :=
    ((e.rowRules.find? (isFor · table row)).map RowRule.disposition).getD .update
  savesColumn table column value _ _ := !e.deniedColumns.any (denies · table column value)

end Exceptions

end SqlMaps
