import SqlMaps.Config.Retention
import SqlMaps.Engine.RowSet

/-! Retention policies: what survives a migration.

A policy is asked about tables, about each row, and about each column of a row. Its
answers depend on what it is asked about and on nothing else. The settings of a retention
file give one (`RetentionPolicy.ofRetention`); the policy that is asked nothing more than
`permissive` keeps everything. -/
namespace SqlMaps

/-- What survives a migration. Versions are those of the old and the new database.

Each answer is a function of its arguments alone: asked the same again, a policy answers the
same, and being asked changes nothing, neither the policy nor a database. A policy that counts
its calls, or uses a session by itself, is none. -/
structure RetentionPolicy where
  /-- Whether a table is never copied. -/
  ignoresTable : (table : String) → Bool
  /-- Whether a column is never written. -/
  ignoresColumn : (table column : String) → Bool
  /-- Whether a table may be copied between the versions. -/
  savesTable : (table : String) → (old new : Int64) → Bool
  /-- What becomes of a row, which is shown without its id. -/
  disposition : (table : String) → Record → (old new : Int64) → Disposition
  /-- Whether a value may be written over the one of an existing row. -/
  savesColumn : (table column : String) → Value → (old new : Int64) → Bool

namespace RetentionPolicy

/-- Keeps everything, and writes rows over those with the same ids. -/
def permissive : RetentionPolicy where
  ignoresTable _ := false
  ignoresColumn _ _ := false
  savesTable _ _ _ := true
  disposition _ _ _ _ := .update
  savesColumn _ _ _ _ _ := true

/-- The policy that settings describe. -/
def ofRetention (r : Retention) : RetentionPolicy :=
  { permissive with
    ignoresTable := r.ignoresTable
    ignoresColumn := r.ignoresColumn
    disposition := fun table _ _ _ => r.disposition table }

end RetentionPolicy

end SqlMaps
