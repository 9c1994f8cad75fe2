import SqlMaps.Session.Basic

/-! What tables a database has: their names, their columns and how many rows they
hold. Tables that the database maintains itself are left out. -/
namespace SqlMaps

/-- A table at the moment it was looked at. -/
structure TableSnapshot where
  name : String
  /-- The columns in the order of their declaration. -/
  columns : List String
  rowCount : Nat
  deriving DecidableEq

namespace TableSnapshot

/-- Whether the table held a row. -/
def hasRows (t : TableSnapshot) : Bool :=
  t.rowCount > 0

/-- Whether the table has the column. -/
def hasColumn (t : TableSnapshot) (column : String) : Bool :=
  t.columns.contains column

/-- The columns that another table has too, in the order of this one. -/
def sharedColumns (t other : TableSnapshot) : List String :=
  t.columns.filter other.hasColumn

end TableSnapshot

/-- Whether a table is one that the database maintains itself. -/
def isSystemTable (name : String) : Bool :=
  "sqlite_".toList.isPrefixOf name.toList

namespace Caller

/-- Sends a query about a table; a refusal of the database names the table. -/
def queryAbout (c : Caller σ) (table : String) (command : Sql.Command) : SessionM σ RowSet := do
  match ← settle (c.query command.text) with
  | .ok rows => return rows
  | .error (.database text) => throw (.noSnapshot table text)
  | .error e => throw e

/-- Looks at one table. -/
def snapshotTable (c : Caller σ) (name : String) : SessionM σ TableSnapshot := do
  let empty ← c.queryAbout name (.columns name)
  let counted ← c.queryAbout name (.countRows name)
  let count ← match counted.record? 0 with
    | none => pure 0
    | some r => settled (r.integer (.at 0))
  return ⟨name, empty.columns, count.toInt.toNat⟩

/-- Looks at the tables of the names, leaving out those of the database itself. -/
def snapshotAll (c : Caller σ) : List String → SessionM σ (List TableSnapshot)
  | [] => return []
  | name :: names => do
    if isSystemTable name then c.snapshotAll names
    else
      let table ← c.snapshotTable name
      return table :: (← c.snapshotAll names)

/-- Looks at every table, by name. -/
def snapshotTables (c : Caller σ) : SessionM σ (List TableSnapshot) := do
  let rows ← c.queryAbout "sqlite_master" .tableNames
  c.snapshotAll (rows.records.filterMap fun r => r.text? (.at 0))

end Caller

end SqlMaps
