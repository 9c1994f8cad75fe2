import SqlMaps.Sql.CommandReader
import SqlMaps.Store.Basic

/-! Images: a database as text, the form in which it rests in a file.

The first line holds the version. Then every table has a line with its name, one for
each column and one for each row. Names are quoted identifiers and values are literals,
as they stand in statements, so an image holds any name and any stored value. -/
namespace SqlMaps.Store

/-! ### Writing -/

/-- A column: its name, what holds of it, and what a new row holds in it. -/
def Column.image (c : Column) : String :=
  "column " ++ Sql.identifier c.name ++ " " ++ (if c.isRowId then "rowid " else "") ++
    (if c.required then "required " else "") ++ c.initial.literal ++ "\n"

/-- A row: its id and its values. -/
def Row.image (r : Row) : String :=
  "row " ++ Number.intText r.id.toInt ++
    String.join (r.values.map fun v => ", " ++ v.literal) ++ "\n"

/-- A table. -/
def Table.image (t : Table) : String :=
  "table " ++ Sql.identifier t.name ++ "\n" ++ String.join (t.columns.map Column.image) ++
    String.join (t.rows.map Row.image)

/-- What every image begins with. -/
def imageMark : String := "table store, version "

/-- A database. -/
def Database.image (d : Database) : String :=
  imageMark ++ Number.intText d.version.toInt ++ "\n" ++ String.join (d.tables.map Table.image)

/-! ### Reading -/

/-- Reads parts as long as there are any, at most as many as `most`. -/
def readMany (part : Sql.Reader α) : (most : Nat) → Sql.Reader (List α)
  | 0, s => some ([], s)
  | most + 1, s =>
    match part s with
    | none => some ([], s)
    | some (a, rest) => (readMany part most rest).map fun (more, rest) => (a :: more, rest)

/-- Reads parts as long as there are any. -/
def readAll (part : Sql.Reader α) : Sql.Reader (List α) := fun s =>
  readMany part s.length s

/-- Reads a word, or nothing; and says which. -/
def readOptional (word : String) : Sql.Reader Bool := fun s =>
  match Sql.readWord word s with
  | some (_, rest) => some (true, rest)
  | none => some (false, s)

/-- Reads a whole number. -/
def readId : Sql.Reader Int64 := fun s =>
  match Sql.readNumber s with
  | some (.integer n, rest) => some (n, rest)
  | _ => none

/-- Reads a column. -/
def readColumn : Sql.Reader Column := fun s => do
  let (_, rest) ← Sql.readWord "column " s
  let (name, rest) ← Sql.readIdentifier rest
  let (_, rest) ← Sql.readWord " " rest
  let (isRowId, rest) ← readOptional "rowid " rest
  let (required, rest) ← readOptional "required " rest
  let (initial, rest) ← Sql.readLiteral rest
  let (_, rest) ← Sql.readWord "\n" rest
  return (⟨name, isRowId, required, initial⟩, rest)

/-- Reads a value behind a comma. -/
def readItem : Sql.Reader Value := fun s => do
  let (_, rest) ← Sql.readWord ", " s
  Sql.readLiteral rest

/-- Reads a row. -/
def readRow : Sql.Reader Row := fun s => do
  let (_, rest) ← Sql.readWord "row " s
  let (id, rest) ← readId rest
  let (values, rest) ← readAll readItem rest
  let (_, rest) ← Sql.readWord "\n" rest
  return (⟨id, values⟩, rest)

/-- Reads a table. -/
def readTable : Sql.Reader Table := fun s => do
  let (_, rest) ← Sql.readWord "table " s
  let (name, rest) ← Sql.readIdentifier rest
  let (_, rest) ← Sql.readWord "\n" rest
  let (columns, rest) ← readAll readColumn rest
  let (rows, rest) ← readAll readRow rest
  return (⟨name, columns, rows⟩, rest)

/-- The database that a text is the image of. -/
def Database.ofImage? (text : String) : Option Database := do
  let (_, rest) ← Sql.readWord imageMark text.toList
  let (version, rest) ← readId rest
  let (_, rest) ← Sql.readWord "\n" rest
  let (tables, rest) ← readAll readTable rest
  Sql.readEnd rest
  return ⟨version, tables⟩

end SqlMaps.Store
