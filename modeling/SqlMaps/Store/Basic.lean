import SqlMaps.Text.Case
import SqlMaps.Text.Split
import SqlMaps.Value.Basic

/-! A store of tables.

Every row has an id, and the rows of a table are kept in the order of their ids. A
column may be the id itself under a name of its own; others hold any value, unless
they are required to hold one. A statement asks for the id as `ROWID`; where a column
has that name, the statement gets that column. -/
namespace SqlMaps.Store

/-- A column of a table. -/
structure Column where
  name : String
  /-- Whether the column is the row id. -/
  isRowId : Bool
  /-- Whether the column always holds a value. -/
  required : Bool
  /-- What a new row holds that is given nothing for the column. -/
  initial : Value
  deriving DecidableEq

/-- A row: its id, and a value for every column. -/
structure Row where
  id : Int64
  values : List Value
  deriving DecidableEq

/-- A table. -/
structure Table where
  name : String
  columns : List Column
  rows : List Row
  deriving DecidableEq

/-- A database. -/
structure Database where
  /-- The version that its user has given it. -/
  version : Int64
  tables : List Table
  deriving DecidableEq

/-- A database without tables. -/
def Database.empty : Database := ⟨0, []⟩

/-- Why a statement is refused. -/
inductive Error where
  | notDatabase
  | unrecognized (sql : String)
  /-- A character of code zero breaks off a literal. -/
  | brokenLiteral (token sql : String)
  /-- The database was opened only to be read. -/
  | readOnly
  | noTable (table : String)
  | noColumn (column : String)
  | valueCount (values columns : Nat)
  | required (table column : String)
  | notUnique (table column : String)
  | typeMismatch
  | alreadyBegun
  | nothingToCommit
  | nothingToRollBack
  | vacuumInside
  deriving DecidableEq

/-- The wording of an error. -/
def Error.message : Error → String
  | .notDatabase => "file is not a database"
  | .unrecognized sql => "unrecognized statement: " ++ sql
  | .brokenLiteral token sql =>
    let read := Text.byteLength (sql.toList.takeWhile (· ≠ '\x00'))
    "unrecognized token: \"" ++ token ++ "\" in " ++ sql ++ " at offset " ++
      Number.intText (read - Text.byteLength token.toList : Nat)
  | .readOnly => "attempt to write a readonly database"
  | .noTable table => "no such table: " ++ table
  | .noColumn column => "no such column: " ++ column
  | .valueCount values columns =>
    Number.intText values ++ " values for " ++ Number.intText columns ++ " columns"
  | .required table column => "NOT NULL constraint failed: " ++ table ++ "." ++ column
  | .notUnique table column => "UNIQUE constraint failed: " ++ table ++ "." ++ column
  | .typeMismatch => "datatype mismatch"
  | .alreadyBegun => "cannot start a transaction within a transaction"
  | .nothingToCommit => "cannot commit - no transaction is active"
  | .nothingToRollBack => "cannot rollback - no transaction is active"
  | .vacuumInside => "cannot VACUUM from within a transaction"

/-- A value in the form in which a store holds it: flags are numbers, timestamps are
text, and what is no number is nothing. -/
def stored : Value → Value
  | .flag b => .integer (Value.ofFlag b)
  | .timestamp t => .text t.text
  | .real x => if x.isNan then .null else .real x
  | v => v

namespace Table

/-- The name of the column that is the row id, if there is one. -/
def rowIdColumn? (t : Table) : Option String :=
  (t.columns.find? Column.isRowId).map Column.name

/-- The position of a column. -/
def position? (t : Table) (column : String) : Option Nat :=
  t.columns.findIdx? (·.name = column)

/-- The value of a column of a row; a column that is missing holds nothing. -/
def valueOf (t : Table) (row : Row) (column : String) : Value :=
  ((t.position? column).bind (row.values[·]?)).getD .null

/-- The column that statements get for the row id, if one has its name in any letter
case. -/
def rowIdNamed? (t : Table) : Option String :=
  (t.columns.find? fun c => Text.sameLetters c.name.toList "rowid".toList).map Column.name

/-- What statements get for the id of a row. -/
def rowIdOf (t : Table) (row : Row) : Value :=
  match t.rowIdNamed? with
  | some column => t.valueOf row column
  | none => .integer row.id

/-- The id that the next row gets: one above the highest. -/
def nextId (t : Table) : Int64 :=
  match t.rows.getLast? with
  | none => 1
  | some row => row.id + 1

/-- Whether a row has the id. -/
def hasId (t : Table) (id : Int64) : Bool :=
  t.rows.any (·.id = id)

/-- Puts a row among those with smaller and larger ids. -/
def placeRow (row : Row) : List Row → List Row
  | [] => [row]
  | r :: rows => if row.id < r.id then row :: r :: rows else r :: placeRow row rows

/-- The required column that a row holds nothing in, if there is one. -/
def missing? (t : Table) (values : List Value) : Option Column :=
  ((t.columns.zip values).find? fun (column, value) =>
    column.required && !column.isRowId && value.isNull).map Prod.fst

/-- A real number as a row id: it has to be whole, and within the ends of the range. -/
def idOfReal (x : Number.Binary64) : Except Error Int64 :=
  match x.toInt? with
  | none => .error .typeMismatch
  | some n =>
    if Number.Range.int64.low < n ∧ n < Number.Range.int64.high then .ok (Int64.ofInt n)
    else .error .typeMismatch

/-- A value as a row id: a whole number, or text that spells one. -/
def idOf : Value → Except Error Int64
  | .integer n => .ok n
  | .real x => idOfReal x
  | .text s =>
    let digits := Text.trimAscii s.toList
    match Number.Range.int64.read 10 digits, Number.Binary64.read digits with
    | .ok n, _ => .ok (Int64.ofInt n)
    | _, .ok x => idOfReal x
    | _, _ => .error .typeMismatch
  | _ => .error .typeMismatch

/-- The values of a row with the id in the column that is the id. -/
def withId (t : Table) (id : Int64) (values : List Value) : List Value :=
  (t.columns.zip values).map fun (column, value) =>
    if column.isRowId then .integer id else value

/-- Adds a row of values, one for every column. Without an id it gets the next one. -/
def addRow (t : Table) (values : List Value) : Except Error Table := do
  let given := (t.columns.zip values).find? fun (column, _) => column.isRowId
  let id ← match given with
    | none => pure t.nextId
    | some (_, .null) => pure t.nextId
    | some (_, v) => idOf v
  match t.missing? values with
  | some column => throw (.required t.name column.name)
  | none =>
    if t.hasId id then throw (.notUnique t.name (t.rowIdColumn?.getD "rowid"))
    else return { t with rows := placeRow ⟨id, t.withId id values⟩ t.rows }

/-- Adds a row with values for some columns; the others take what they begin with. The
row id begins with nothing, and so gets the next one. -/
def insert (t : Table) (columns : List String) (values : List Value) : Except Error Table := do
  if columns.length ≠ values.length then throw (.valueCount values.length columns.length)
  match columns.find? fun column => (t.position? column).isNone with
  | some column => throw (.noColumn column)
  | none =>
    t.addRow (t.columns.map fun column =>
      ((columns.zip (values.map stored)).lookup column.name).getD
        (if column.isRowId then .null else column.initial))

/-- Changes columns of a row. -/
def updateRow (t : Table) (assignments : List (String × Value)) (row : Row) :
    Except Error Table := do
  let values := (t.columns.zip row.values).map fun (column, value) =>
    ((assignments.map fun (name, v) => (name, stored v)).lookup column.name).getD value
  let newId ← match (t.columns.zip values).find? fun (column, _) => column.isRowId with
    | none => pure row.id
    | some (_, v) => idOf v
  match t.missing? values with
  | some column => throw (.required t.name column.name)
  | none =>
    let others := t.rows.filter (·.id ≠ row.id)
    if others.any (·.id = newId) then throw (.notUnique t.name (t.rowIdColumn?.getD "rowid"))
    else return { t with rows := placeRow ⟨newId, t.withId newId values⟩ others }

/-- Whether a value is a number of the size. -/
def isNumber (n : Int64) : Value → Bool
  | .integer m => m = n
  | .real x => x.toInt? = some n.toInt
  | _ => false

/-- Changes columns of the rows with the id, and says how many rows there were. -/
def update (t : Table) (assignments : List (String × Value)) (id : Int64) :
    Except Error (Nat × Table) := do
  match assignments.find? fun a => (t.position? a.1).isNone with
  | some (column, _) => throw (.noColumn column)
  | none =>
    let rows := t.rows.filter fun row => isNumber id (t.rowIdOf row)
    let t ← rows.foldlM (fun t row => t.updateRow assignments row) t
    return (rows.length, t)

/-- The rows under consecutive ids from one on, unless a column is the id. -/
def renumbered (t : Table) : Table :=
  if t.rowIdColumn?.isSome then t
  else { t with rows := t.rows.zipIdx.map fun (row, i) => { row with id := Int64.ofNat (i + 1) } }

end Table

namespace Database

/-- The table of a name. -/
def table? (d : Database) (name : String) : Option Table :=
  d.tables.find? (·.name = name)

/-- The database with a table in place of the one of its name. -/
def setTable (d : Database) (t : Table) : Database :=
  { d with tables := d.tables.map fun u => if u.name = t.name then t else u }

end Database

end SqlMaps.Store
