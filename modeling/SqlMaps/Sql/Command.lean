import SqlMaps.Sql.TransactionMode
import SqlMaps.Value.Basic

/-! The statements that the library writes itself.

They control transactions, ask a database what it holds, and copy rows from one
database to another. Names are quoted identifiers and values are literals, whatever
characters they hold. -/
namespace SqlMaps.Sql

/-- A name as an identifier: between double quotes, which are doubled inside it. -/
def identifier (name : String) : String :=
  Text.Quoted.enclosed '"' name

/-- Items in a list, separated by a comma and a space. -/
def commaList (items : List String) : String :=
  ", ".intercalate items

/-- Names as a list of identifiers. -/
def identifiers (names : List String) : String :=
  commaList (names.map identifier)

/-- Values as a list of literals. -/
def literals (values : List Value) : String :=
  commaList (values.map Value.literal)

/-- The name under which copied rows carry their id. -/
def rowIdAlias : String := "_migrate_rowid_"

/-- A column set to a value. -/
def assignment (a : String × Value) : String :=
  identifier a.1 ++ " = " ++ a.2.literal

/-- A statement of the library's own. -/
inductive Command where
  | begin (mode : TransactionMode)
  | commit
  | rollback
  | readVersion
  | setVersion (version : Int64)
  /-- Rebuilds the file without its gaps. -/
  | vacuum
  /-- The names of all tables. -/
  | tableNames
  /-- No rows of a table, for the names of its columns. -/
  | columns (table : String)
  | countRows (table : String)
  /-- The row ids of a table. -/
  | rowIds (table : String)
  /-- Columns of all rows, after the row id and in its order. -/
  | copyRows (table : String) (columns : List String)
  | insert (table : String) (columns : List String) (values : List Value)
  | update (table : String) (assignments : List (String × Value)) (rowId : Int64)
  deriving DecidableEq

/-- The text of a statement. -/
def Command.text : Command → String
  | .begin mode => mode.beginStatement
  | .commit => "COMMIT"
  | .rollback => "ROLLBACK"
  | .readVersion => "PRAGMA user_version"
  | .setVersion version => "PRAGMA user_version = " ++ Number.intText version.toInt
  | .vacuum => "VACUUM"
  | .tableNames => "SELECT name FROM sqlite_master WHERE type = 'table' ORDER BY name"
  | .columns table => "SELECT * FROM " ++ identifier table ++ " LIMIT 0"
  | .countRows table => "SELECT COUNT(ROWID) FROM " ++ identifier table
  | .rowIds table => "SELECT ROWID FROM " ++ identifier table
  | .copyRows table names =>
    "SELECT ROWID AS " ++ rowIdAlias ++ ", " ++ identifiers names ++ " FROM " ++
      identifier table ++ " ORDER BY ROWID"
  | .insert table names values =>
    "INSERT INTO " ++ identifier table ++ " (" ++ identifiers names ++ ") VALUES (" ++
      literals values ++ ")"
  | .update table assignments rowId =>
    "UPDATE " ++ identifier table ++ " SET " ++ commaList (assignments.map assignment) ++
      " WHERE ROWID = " ++ Number.intText rowId.toInt

end SqlMaps.Sql
