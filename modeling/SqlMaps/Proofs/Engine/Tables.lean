import Mathlib.Data.List.Nodup
import SqlMaps.Engine.Basic
import SqlMaps.Sql.CommandReader
import SqlMaps.Store.Basic

/-! Engines that implement tables with row ids.

`Tabular e` says which tables the engine `e` has in a state, and that it answers the
library's questions about them as a database does. `Appends` and `Overwrites` are the laws
of writing. A law is about every text that reads as a statement, and about success only: an
engine may refuse whatever it likes. -/
namespace SqlMaps.Relational

/-- A column, and what a row holds there that is given nothing for it. -/
structure Column where
  name : String
  initial : Value
  /-- Whether the column is the row id under a name of its own. -/
  isId : Bool

/-- A row: its id, and a value for every column. -/
structure Row where
  id : Int64
  values : List Value

/-- A table, with its rows in the order of their ids. -/
structure Table where
  name : String
  columns : List Column
  rows : List Row

theorem lookup_zip_map (names : List String) (value : String → Value) (name : String) :
    (names.zip (names.map value)).lookup name = if name ∈ names then some (value name) else none := by
  induction names with
  | nil => rfl
  | cons n names ih =>
    by_cases h : name = n
    · simp [h]
    · simp [List.lookup_cons, h, ih, beq_eq_false_iff_ne.2 h]

namespace Table

def columnNames (t : Table) : List String :=
  t.columns.map Column.name

/-- The value of a column of a row. -/
def valueOf (t : Table) (row : Row) (column : String) : Value :=
  ((t.columnNames.zip row.values).lookup column).getD .null

/-- The table with other rows. -/
def withRows (t : Table) (rows : List Row) : Table :=
  { t with rows }

@[simp] theorem withRows_name (t : Table) (rows : List Row) : (t.withRows rows).name = t.name := rfl

@[simp] theorem withRows_columns (t : Table) (rows : List Row) :
    (t.withRows rows).columns = t.columns := rfl

@[simp] theorem withRows_rows (t : Table) (rows : List Row) : (t.withRows rows).rows = rows := rfl

@[simp] theorem withRows_withRows (t : Table) (rows rows' : List Row) :
    (t.withRows rows).withRows rows' = t.withRows rows' := rfl

/-- The values of a row that is given some; the other columns hold what they begin with. -/
def filled (t : Table) (given : List (String × Value)) : List Value :=
  t.columns.map fun c => (given.lookup c.name).getD c.initial

/-- A row after values were written over its own. -/
def overwritten (t : Table) (given : List (String × Value)) (row : Row) : Row :=
  { row with values := t.columns.map fun c => (given.lookup c.name).getD (t.valueOf row c.name) }

/-- The rows after values were written over the one with the id. -/
def overwriting (t : Table) (id : Int64) (given : List (String × Value)) : List Row :=
  t.rows.map fun row => if row.id = id then t.overwritten given row else row

@[simp] theorem filled_withRows (t : Table) (rows : List Row) (given : List (String × Value)) :
    (t.withRows rows).filled given = t.filled given := rfl

@[simp] theorem overwritten_withRows (t : Table) (rows : List Row) (given : List (String × Value))
    (row : Row) : (t.withRows rows).overwritten given row = t.overwritten given row := rfl

theorem valueOf_overwritten {t : Table} {column : String} (h : column ∈ t.columnNames)
    (given : List (String × Value)) (row : Row) :
    t.valueOf (t.overwritten given row) column =
      (given.lookup column).getD (t.valueOf row column) := by
  have hvalues : (t.overwritten given row).values =
      t.columnNames.map fun name => (given.lookup name).getD (t.valueOf row name) := by
    rw [columnNames, List.map_map]
    rfl
  rw [valueOf, hvalues, lookup_zip_map, if_pos h, Option.getD_some]

/-- A row that is given values holds them. -/
theorem valueOf_filled {t : Table} {given : List (String × Value)} {column : String} {w : Value}
    (h : column ∈ t.columnNames) (hgiven : given.lookup column = some w) (id : Int64) :
    t.valueOf ⟨id, t.filled given⟩ column = w := by
  have hlookup : (t.columnNames.zip (t.filled given)).lookup column = some w := by
    rw [columnNames] at h
    rw [columnNames, filled]
    generalize t.columns = columns at h ⊢
    induction columns with
    | nil => cases h
    | cons c columns ih =>
      by_cases hc : column = c.name
      · simp [← hc, hgiven]
      · have hrest := ih ((List.mem_cons.1 h).resolve_left hc)
        simpa [List.lookup_cons, beq_eq_false_iff_ne.2 hc] using hrest
  rw [valueOf, hlookup, Option.getD_some]

/-- Where no row has the id, none is written over. -/
theorem overwriting_of_not_mem {t : Table} {id : Int64} (h : id ∉ t.rows.map Row.id)
    (given : List (String × Value)) : t.overwriting id given = t.rows := by
  refine (List.map_congr_left fun row hrow => if_neg ?_).trans (List.map_id t.rows)
  exact fun hid => h (hid ▸ List.mem_map_of_mem hrow)

/-- Rows keep their ids when one is written over. -/
theorem map_id_overwriting (t : Table) (id : Int64) (given : List (String × Value)) :
    (t.overwriting id given).map Row.id = t.rows.map Row.id := by
  rw [overwriting, List.map_map]
  refine List.map_congr_left fun row _ => ?_
  rw [Function.comp_apply]
  split <;> rfl

end Table

/-- The tables with one put in the place of that of its name. -/
def replace (t : Table) (tables : List Table) : List Table :=
  tables.map fun u => if u.name = t.name then t else u

@[simp] theorem replace_withRows (t : Table) (rows rows' : List Row) (tables : List Table) :
    replace (t.withRows rows) (replace (t.withRows rows') tables) =
      replace (t.withRows rows) tables := by
  simp only [replace, List.map_map]
  refine List.map_congr_left fun u _ => ?_
  by_cases hu : u.name = t.name <;> simp [hu]

theorem mem_replace {t t' : Table} {tables : List Table} (ht : t ∈ tables) (h : t'.name = t.name) :
    t' ∈ replace t' tables :=
  List.mem_map.2 ⟨t, ht, if_pos h.symm⟩

theorem map_name_replace (t : Table) (tables : List Table) :
    (replace t tables).map Table.name = tables.map Table.name := by
  rw [replace, List.map_map]
  refine List.map_congr_left fun u _ => ?_
  by_cases hu : u.name = t.name <;> simp [hu]

/-- Tables of other names stay. -/
theorem mem_replace_iff_of_ne {t t' : Table} {tables : List Table} (h : t.name ≠ t'.name) :
    t ∈ replace t' tables ↔ t ∈ tables := by
  rw [replace, List.mem_map]
  constructor
  · rintro ⟨u, hu, hout⟩
    split at hout
    · exact absurd (congrArg Table.name hout).symm h
    · exact hout ▸ hu
  · exact fun ht => ⟨t, ht, if_neg h⟩

/-- Names tell tables apart, so putting a table in its own place changes nothing. -/
theorem replace_self {t : Table} {tables : List Table} (ht : t ∈ tables)
    (hnames : (tables.map Table.name).Nodup) : replace t tables = tables := by
  refine (List.map_congr_left fun u hu => ?_).trans (List.map_id tables)
  split
  · rename_i h
    exact List.inj_on_of_nodup_map hnames ht hu h.symm
  · rfl

/-- What tables answer to a question. A question about a table that there is not is
answered as the engine likes. -/
def Answers (tables : List Table) : Sql.Command → RowSet → Prop
  | .tableNames, rows => ∃ column, rows = ⟨[column], tables.map fun t => [.text t.name]⟩
  | .columns name, rows => ∀ t ∈ tables, t.name = name → rows.columns = t.columnNames
  | .countRows name, rows => ∀ t ∈ tables, t.name = name →
    ∃ column, ∃ n : Int64, rows = ⟨[column], [[.integer n]]⟩ ∧ n.toInt = t.rows.length
  | .copyRows name columns, rows => ∀ t ∈ tables, t.name = name → columns ⊆ t.columnNames →
    rows = ⟨Sql.rowIdAlias :: columns,
      t.rows.map fun row => .integer row.id :: columns.map (t.valueOf row)⟩
  | _, _ => True

theorem stored_stored (v : Value) : Store.stored (Store.stored v) = Store.stored v := by
  cases v with
  | real x => cases h : x.isNan <;> simp [Store.stored, h]
  | _ => rfl

/-- Assignments with their values in the form of a store. -/
def asStored (given : List (String × Value)) : List (String × Value) :=
  given.map fun a => (a.1, Store.stored a.2)

@[simp] theorem asStored_asStored (given : List (String × Value)) :
    asStored (asStored given) = asStored given := by
  simp [asStored, stored_stored]

/-- The columns that a table shares with another one, in the order of this one. -/
def sharedColumns (u t : Table) : List String :=
  u.columnNames.filter t.columnNames.contains

/-- The values that a row of `u` has in the columns shared with `t`. -/
def projected (u t : Table) (row : Row) : List (String × Value) :=
  (sharedColumns u t).zip ((sharedColumns u t).map (u.valueOf row))

theorem lookup_projected (u t : Table) (row : Row) (name : String) :
    (projected u t row).lookup name =
      if name ∈ sharedColumns u t then some (u.valueOf row name) else none :=
  lookup_zip_map _ _ _

/-- What is found among values in the form of a store, or is there for want of one, is in
this form. -/
theorem stored_getD_lookup {given : List (String × Value)}
    (hgiven : ∀ a ∈ given, Store.stored a.2 = a.2) {column : String} {w : Value}
    (hw : Store.stored w = w) :
    Store.stored ((given.lookup column).getD w) = (given.lookup column).getD w := by
  cases hlookup : given.lookup column with
  | none => exact hw
  | some v =>
    obtain ⟨before, after, hsplit, -⟩ := List.lookup_eq_some_iff.1 hlookup
    exact hgiven _ (hsplit ▸ List.mem_append_right before (List.mem_cons_self ..))

section Stored
variable {u t : Table} {row : Row} (hrow : ∀ v ∈ row.values, Store.stored v = v)
include hrow

/-- A literal is read as the value that was written, for what a table holds. -/
theorem stored_valueOf (column : String) :
    Store.stored (u.valueOf row column) = u.valueOf row column :=
  stored_getD_lookup (fun _ ha => hrow _ (List.of_mem_zip ha).2) rfl

theorem map_stored_valueOf (columns : List String) :
    (columns.map (u.valueOf row)).map Store.stored = columns.map (u.valueOf row) := by
  rw [List.map_map]
  exact List.map_congr_left fun c _ => stored_valueOf hrow c

theorem asStored_of_subset {given : List (String × Value)} (h : given ⊆ projected u t row) :
    asStored given = given := by
  refine (List.map_congr_left fun a ha => ?_).trans (List.map_id given)
  obtain ⟨column, -, hvalue⟩ := List.mem_map.1 (List.of_mem_zip (h ha)).2
  have hstored : Store.stored a.2 = a.2 := hvalue ▸ stored_valueOf hrow column
  rw [hstored]
  rfl

theorem asStored_projected : asStored (projected u t row) = projected u t row :=
  asStored_of_subset hrow (List.Subset.refl _)

end Stored

/-- Whether a statement only asks. -/
def asks : Sql.Command → Bool
  | .readVersion | .tableNames | .columns _ | .countRows _ | .rowIds _ | .copyRows .. => true
  | _ => false

/-- The tables that an engine has, in the states that are sound. -/
structure Tabular (e : Engine σ) where
  tables : σ → List Table
  sound : σ → Prop
  distinct : ∀ {s}, sound s → ((tables s).map Table.name).Nodup
  /-- A row holds values of the kinds that a literal can denote: no flags, no timestamps,
  and nothing that is no number. -/
  stored : ∀ {s}, sound s → ∀ t ∈ tables s, ∀ row ∈ t.rows, ∀ v ∈ row.values, Store.stored v = v
  query : ∀ {s s' sql command rows}, sound s → Sql.Command.read? sql = some command →
    asks command = true → e.query sql s = (.ok rows, s') →
    sound s' ∧ tables s' = tables s ∧ Answers (tables s) command rows
  /-- A transaction begins and is committed with the tables as they are. -/
  bracket : ∀ {s s' sql command}, sound s → Sql.Command.read? sql = some command →
    (command = .commit ∨ ∃ mode, command = .begin mode) → e.batch sql s = (.ok (), s') →
    sound s' ∧ tables s' = tables s

namespace Tabular
variable {e : Engine σ} (v : Tabular e)

/-- The state is a sound one with the tables. -/
structure Shows (tables : List Table) (s : σ) : Prop where
  sound : v.sound s
  tables_eq : v.tables s = tables

/-- An INSERT that succeeds adds one last row. It holds the values of the literals, in the
form of a store, and in the other columns what these begin with. -/
def Appends : Prop :=
  ∀ {s s' sql name columns values n t}, v.sound s →
    Sql.Command.read? sql = some (.insert name columns values) → e.execute sql s = (.ok n, s') →
    t ∈ v.tables s → t.name = name →
    ∃ id, v.Shows (replace (t.withRows
      (t.rows ++ [⟨id, t.filled (columns.zip (values.map Store.stored))⟩])) (v.tables s)) s'

/-- Rows are told apart by their ids. -/
def Identifies : Prop :=
  ∀ {s}, v.sound s → ∀ t ∈ v.tables s, (t.rows.map Row.id).Nodup

/-- An UPDATE that succeeds changes rows of its table only. It writes the values of its
literals over the row with the id, which keeps its id and its place, if no column that is
the id is given another one. -/
def Overwrites : Prop :=
  ∀ {s s' sql name given id n t}, v.sound s →
    Sql.Command.read? sql = some (.update name given id) → e.execute sql s = (.ok n, s') →
    t ∈ v.tables s → t.name = name →
    ∃ rows, v.Shows (replace (t.withRows rows) (v.tables s)) s' ∧
      ((∀ c ∈ t.columns, c.isId = true → ∀ w ∈ (asStored given).lookup c.name, w = .integer id) →
        rows = t.overwriting id (asStored given))

end Tabular

end SqlMaps.Relational
