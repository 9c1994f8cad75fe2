import SqlMaps.Engine.Basic
import SqlMaps.Sql.CommandReader
import SqlMaps.Store.Order

/-! The table store as a database engine.

A connection holds the database as the statements so far have left it, and inside a
transaction also as it was before. The engine runs the library's own statements and
refuses any other. -/
namespace SqlMaps.Store

/-- An open database file. -/
structure Connection where
  /-- The database; a file that is none has nothing. -/
  current : Option Database
  /-- The database as it was when the open transaction began. -/
  saved : Option Database
  /-- Whether the file was opened only to be read. -/
  readOnly : Bool
  deriving DecidableEq

/-- A database outside of a transaction. -/
def Connection.ofDatabase (d : Database) (readOnly : Bool) : Connection :=
  ⟨some d, none, readOnly⟩

/-- A file that is no database. -/
def Connection.unusable (readOnly : Bool) : Connection := ⟨none, none, readOnly⟩

/-- The database without the changes of an open transaction: what the file holds. -/
def Connection.committed (c : Connection) : Option Database :=
  c.saved.orElse fun _ => c.current

/-- What a statement gives back. -/
inductive Answer where
  | done
  | changed (rows : Nat)
  | rows (rows : RowSet)

/-- The table of a name. -/
def findTable (d : Database) (name : String) : Except Error Table :=
  match d.table? name with
  | some t => .ok t
  | none => .error (.noTable name)

/-- The id of a row with the values of some columns. -/
def copiedRow (t : Table) (columns : List String) (row : Row) : List Value :=
  t.rowIdOf row :: columns.map (t.valueOf row)

/-- Answers a question about a database. -/
def question (d : Database) : Sql.Command → Except Error RowSet
  | .readVersion => .ok ⟨["user_version"], [[.integer d.version]]⟩
  | .tableNames => .ok ⟨["name"], d.tables.map fun t => [.text t.name]⟩
  | .columns name => do
    let t ← findTable d name
    return ⟨t.columns.map Column.name, []⟩
  | .countRows name => do
    let t ← findTable d name
    let counted := t.rows.filter fun row => !(t.rowIdOf row).isNull
    return ⟨["COUNT(ROWID)"], [[.integer (Int64.ofNat counted.length)]]⟩
  | .rowIds name => do
    let t ← findTable d name
    return ⟨["ROWID"], t.rows.map fun row => [t.rowIdOf row]⟩
  | .copyRows name columns => do
    let t ← findTable d name
    match columns.find? fun column => (t.position? column).isNone with
    | some column => throw (.noColumn column)
    | none => return ⟨Sql.rowIdAlias :: columns, t.ordered.map (copiedRow t columns)⟩
  | command => .error (.unrecognized command.text)

/-- Runs a statement on a database. -/
def perform (c : Connection) (d : Database) : Sql.Command → Except Error (Answer × Connection)
  | .begin _ =>
    if c.saved.isSome then .error .alreadyBegun else .ok (.done, { c with saved := some d })
  | .commit =>
    if c.saved.isSome then .ok (.done, { c with saved := none }) else .error .nothingToCommit
  | .rollback =>
    match c.saved with
    | some before => .ok (.done, .ofDatabase before c.readOnly)
    | none => .error .nothingToRollBack
  | .setVersion version => .ok (.done, { c with current := some { d with version } })
  | .vacuum =>
    if c.saved.isSome then .error .vacuumInside
    else .ok (.done, { c with current := some { d with tables := d.tables.map Table.renumbered } })
  | .insert name columns values => do
    let t ← findTable d name
    let t ← t.insert columns values
    return (.changed 1, { c with current := some (d.setTable t) })
  | .update name assignments id => do
    let t ← findTable d name
    let (changed, t) ← t.update assignments id
    return (.changed changed, { c with current := some (d.setTable t) })
  | command => do
    let rows ← question d command
    return (.rows rows, c)

/-- The values that stand in a statement as literals. -/
def literalsOf : Sql.Command → List Value
  | .insert _ _ values => values
  | .update _ assignments _ => assignments.map Prod.snd
  | _ => []

/-- The beginning of the first literal that a character of code zero breaks off. -/
def brokenLiteral? (command : Sql.Command) : Option String :=
  let literals := (literalsOf command).map fun v => v.literal.toList
  (literals.find? (·.contains '\x00')).map fun s => String.ofList (s.takeWhile (· ≠ '\x00'))

/-- Whether a statement writes to the database. -/
def writes : Sql.Command → Bool
  | .setVersion _ | .vacuum | .insert .. | .update .. => true
  | _ => false

/-- Runs a statement, unless it cannot be read or must not write. -/
def runCommand (sql : String) (c : Connection) (d : Database) (command : Sql.Command) :
    Except Error (Answer × Connection) :=
  match brokenLiteral? command with
  | some token => .error (.brokenLiteral token sql)
  | none => if c.readOnly && writes command then .error .readOnly else perform c d command

/-- Runs the text of a statement. A statement that fails changes nothing. -/
def runText (sql : String) (c : Connection) : Except RunError Answer × Connection :=
  let result : Except Error (Answer × Connection) := match c.current, Sql.Command.read? sql with
    | none, _ => .error .notDatabase
    | some _, none => .error (.unrecognized sql)
    | some d, some command => runCommand sql c d command
  match result with
  | .ok (answer, c) => (.ok answer, c)
  | .error e => (.error (.database e.message), c)

/-- How many rows an answer says were changed. -/
def Answer.changedRows : Answer → Nat
  | .changed n => n
  | _ => 0

/-- The rows of an answer. -/
def Answer.rowSet : Answer → RowSet
  | .rows rs => rs
  | _ => .empty

/-- The engine over a table store. -/
def engine : Engine Connection where
  batch sql c :=
    let (r, c) := runText sql c
    (r.map fun _ => (), c)
  execute sql c :=
    let (r, c) := runText sql c
    (r.map Answer.changedRows, c)
  query sql c :=
    let (r, c) := runText sql c
    (r.map Answer.rowSet, c)

end SqlMaps.Store
