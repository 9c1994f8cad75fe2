import SqlMaps.Engine.Error
import SqlMaps.Value.Params

/-! The result of a query, and its rows read by column.

A column is selected by position or by name, and a name means the first column that
bears it. A row may be shorter than the columns, and then the columns at its end hold
nothing; what it has beyond them cannot be selected. -/
namespace SqlMaps

/-- What selects a column. -/
inductive Column where
  | at (position : Nat)
  | named (name : String)
  deriving DecidableEq

namespace Column

/-- The position selected among the columns. -/
def position? (columns : List String) : Column → Option Nat
  | .at position => if position < columns.length then some position else none
  | .named name => columns.idxOf? name

/-- How an error names the column. -/
def label : Column → String
  | .at position => "#" ++ Number.intText position
  | .named name => name

end Column

/-- A row with the columns of its result. -/
structure Record where
  columns : List String
  values : List Value
  deriving DecidableEq

namespace Record

/-- Whether there is a column of the name. -/
def has (r : Record) (name : String) : Bool :=
  (Column.position? r.columns (.named name)).isSome

/-- The value of a column. -/
def value? (r : Record) (column : Column) : Option Value := do
  let position ← column.position? r.columns
  r.values[position]?

/-- Whether the column is absent, or its value is. -/
def isNull (r : Record) (column : Column) : Bool :=
  (r.value? column).all Value.isNull

/-- The text of a column; an absent value has none. -/
def text? (r : Record) (column : Column) : Option String :=
  (r.value? column).bind Value.text?

/-- Reads a column. An error names the column. -/
def readWith (r : Record) (column : Column) (read : Value → Except ReadError α) :
    Except RunError α :=
  match r.value? column with
  | none => .error (.columnNotFound column.label)
  | some v => (read v).mapError fun e => .field (.invalid column.label e)

/-- Reads a column as a value of a type. -/
def get (r : Record) (column : Column) (type : FieldType) : Except RunError Value :=
  r.readWith column type.read

/-- Reads a column as a whole number. -/
def integer (r : Record) (column : Column) : Except RunError Int64 :=
  r.readWith column Value.readInt64

/-- Reads a flag stored as a number or as text. An absent value says no. -/
def flag (r : Record) (column : Column) : Except RunError Bool :=
  r.readWith column fun v => .ok (v.text?.any saysTrue)

/-- The columns with their values, as far as both go. -/
def entries (r : Record) : List (String × Value) :=
  r.columns.zip r.values

/-- The row as parameters named after its columns. -/
def toParams (r : Record) : List Param :=
  r.entries.map fun (name, value) => ⟨name, value⟩

/-- The row without its first column. -/
def tail (r : Record) : Record :=
  ⟨r.columns.tail, r.values.tail⟩

end Record

/-- The columns and the rows of a result. -/
structure RowSet where
  columns : List String
  rows : List (List Value)
  deriving DecidableEq

namespace RowSet

/-- A result without columns and rows. -/
def empty : RowSet := ⟨[], []⟩

/-- How many columns there are. -/
def width (rs : RowSet) : Nat := rs.columns.length

/-- How many rows there are. -/
def size (rs : RowSet) : Nat := rs.rows.length

/-- Whether there are no rows. -/
def isEmpty (rs : RowSet) : Bool := rs.rows.isEmpty

/-- The rows with their columns. -/
def records (rs : RowSet) : List Record :=
  rs.rows.map (⟨rs.columns, ·⟩)

/-- The row at an index, counted from zero. -/
def record? (rs : RowSet) (index : Nat) : Option Record :=
  rs.rows[index]?.map (⟨rs.columns, ·⟩)

/-- The first value of the first row. -/
def scalar? (rs : RowSet) : Option Value :=
  rs.rows.head?.bind List.head?

/-- Every row is as wide as the columns. -/
def Rectangular (rs : RowSet) : Prop :=
  ∀ row ∈ rs.rows, row.length = rs.width

instance (rs : RowSet) : Decidable rs.Rectangular :=
  inferInstanceAs (Decidable (∀ row ∈ rs.rows, row.length = rs.width))

end RowSet

end SqlMaps
