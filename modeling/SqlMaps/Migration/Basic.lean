import SqlMaps.Migration.Policy
import SqlMaps.Snapshot

/-! Migrations: the rows of an old database, copied into a newer one.

Tables that both databases have are copied over the columns they share, all in one
exclusive transaction of the new database. Without a policy a table is copied when
the new one is still empty. With a policy each row is skipped, added, or written over
the row that has its id in the new table. -/
namespace SqlMaps

/-- What a migration has done. -/
inductive MigrationStatus where
  /-- The new database is not newer; nothing was copied. -/
  | upToDate
  | migrated
  deriving DecidableEq

/-- The name of a status. -/
def MigrationStatus.name : MigrationStatus → String
  | .upToDate => "up_to_date"
  | .migrated => "migrated"

/-- The account of a migration. -/
structure MigrationReport where
  status : MigrationStatus
  oldVersion : Int64
  newVersion : Int64
  /-- How many tables were copied. -/
  tables : Nat
  /-- The tables of the old database that were not. -/
  skippedTables : List String
  inserted : Nat
  updated : Nat
  /-- How many rows were left out, or changed nothing. -/
  skipped : Nat
  /-- Whether the copied rows were committed. -/
  committed : Bool
  deriving DecidableEq

/-- The account before anything is done. -/
def MigrationReport.start (oldVersion newVersion : Int64) : MigrationReport :=
  ⟨.upToDate, oldVersion, newVersion, 0, [], 0, 0, 0, false⟩

/-- A migration under way. -/
structure Migration (σ : Type) where
  old : Session σ
  new : Session σ
  report : MigrationReport

/-- A computation in a migration. -/
abbrev MigrationM (σ : Type) := Attempt (Migration σ)

/-- The callers of both databases, and the policy if there is one. -/
structure Migrator (σ : Type) where
  old : Caller σ
  new : Caller σ
  policy : Option RetentionPolicy

namespace Migrator

/-- Runs a computation on the old session. -/
def onOld (x : SessionM σ α) : MigrationM σ α :=
  ExceptT.mk fun m =>
    let (result, old) := x.run m.old
    (result, { m with old })

/-- Runs a computation on the new session. -/
def onNew (x : SessionM σ α) : MigrationM σ α :=
  ExceptT.mk fun m =>
    let (result, new) := x.run m.new
    (result, { m with new })

/-- Changes the account. -/
def account (f : MigrationReport → MigrationReport) : MigrationM σ Unit :=
  modify fun m => { m with report := f m.report }

/-- Counts a row that was added. -/
def countInserted : MigrationM σ Unit :=
  account fun r => { r with inserted := r.inserted + 1 }

/-- Counts a row that was written over another. -/
def countUpdated : MigrationM σ Unit :=
  account fun r => { r with updated := r.updated + 1 }

/-- Counts a row that was left out. -/
def countSkipped : MigrationM σ Unit :=
  account fun r => { r with skipped := r.skipped + 1 }

/-- Sends a statement that writes to the new database. -/
def write (m : Migrator σ) (command : Sql.Command) : MigrationM σ Nat :=
  onNew (m.new.execute command.text)

/-- Whether a table is to be copied. -/
def shouldCopy (m : Migrator σ) (r : MigrationReport) (old new : TableSnapshot) : Bool :=
  old.hasRows &&
    match m.policy with
    | none => !new.hasRows
    | some policy =>
      !policy.ignoresTable old.name && policy.savesTable old.name r.oldVersion r.newVersion

/-- Adds rows, each without its id. -/
def copyRows (m : Migrator σ) (table : String) (columns : List String) :
    List (List Value) → MigrationM σ Unit
  | [] => return
  | row :: rows => do
    discard (m.write (.insert table columns row.tail))
    countInserted
    m.copyRows table columns rows

/-- The row ids that a table of the new database has. -/
def rowIds (m : Migrator σ) (table : String) : MigrationM σ (List Int64) := do
  let rows ← onNew (m.new.query (Sql.Command.rowIds table).text)
  settled (rows.records.mapM fun r => r.integer (.at 0))

/-- The id of a row that is copied. -/
def rowId (r : Record) : Except RunError Int64 :=
  match r.value? (.at 0) with
  | some (.integer n) => .ok n
  | found => .error (.migration (.rowId found))

/-- Writes the columns of a row over the row with its id. -/
def updateRow (m : Migrator σ) (policy : RetentionPolicy) (table : String) (id : Int64)
    (row : Record) : MigrationM σ Unit := do
  let r := (← get).report
  let assignments := row.entries.filter fun (column, value) =>
    !policy.ignoresColumn table column &&
      policy.savesColumn table column value r.oldVersion r.newVersion
  if assignments.isEmpty then countSkipped
  else
    let changed ← m.write (.update table assignments id)
    if changed > 0 then countUpdated else countSkipped

/-- Adds a row with the columns that are kept. -/
def insertRow (m : Migrator σ) (policy : RetentionPolicy) (table : String) (row : Record) :
    MigrationM σ Unit := do
  let kept := row.entries.filter fun (column, _) => !policy.ignoresColumn table column
  if kept.isEmpty then countSkipped
  else
    discard (m.write (.insert table (kept.map Prod.fst) (kept.map Prod.snd)))
    countInserted

/-- Copies a row as the policy says. A row that is to be added is written over the one
that has its id. -/
def placeRow (m : Migrator σ) (policy : RetentionPolicy) (table : String)
    (existing : List Int64) (row : Record) : MigrationM σ Unit := do
  let id ← settled (rowId row)
  let r := (← get).report
  match policy.disposition table row.tail r.oldVersion r.newVersion with
  | .skip => countSkipped
  | .update => m.updateRow policy table id row.tail
  | .insert =>
    if existing.contains id then m.updateRow policy table id row.tail
    else m.insertRow policy table row.tail

/-- Copies rows one after another as the policy says. -/
def placeRows (m : Migrator σ) (policy : RetentionPolicy) (table : String)
    (existing : List Int64) : List Record → MigrationM σ Unit
  | [] => return
  | row :: rows => do
    m.placeRow policy table existing row
    m.placeRows policy table existing rows

/-- Copies a table over the columns shared. Without such columns nothing is copied, and
the answer is no. -/
def copyTable (m : Migrator σ) (old new : TableSnapshot) : MigrationM σ Bool := do
  let columns := old.sharedColumns new
  if columns.isEmpty then return false
  let rows ← onOld (m.old.query (Sql.Command.copyRows old.name columns).text)
  match m.policy with
  | none => m.copyRows old.name columns rows.rows
  | some policy =>
    let existing ← m.rowIds old.name
    m.placeRows policy old.name existing rows.records
  return true

/-- Copies a table if the new database has it too and it is to be copied. -/
def copyInto (m : Migrator σ) (newTables : List TableSnapshot) (old : TableSnapshot) :
    MigrationM σ Bool := do
  match newTables.reverse.find? (·.name = old.name) with
  | none => return false
  | some new =>
    if m.shouldCopy (← get).report old new then m.copyTable old new else return false

/-- Copies tables one after another, and enters each in the account. -/
def copyTables (m : Migrator σ) (newTables : List TableSnapshot) :
    List TableSnapshot → MigrationM σ Unit
  | [] => return
  | old :: rest => do
    if ← m.copyInto newTables old then account fun r => { r with tables := r.tables + 1 }
    else account fun r => { r with skippedTables := r.skippedTables ++ [old.name] }
    m.copyTables newTables rest

/-- Copies everything in one exclusive transaction of the new database. -/
def copyAll (m : Migrator σ) (oldTables newTables : List TableSnapshot) : MigrationM σ Unit := do
  let (_, outcome) ← bracket (onNew (m.new.begin .exclusive)) (onNew m.new.setSuccessful)
    (onNew m.new.finish) (m.copyTables newTables oldTables)
  account fun r => { r with status := .migrated, committed := outcome = .committed }

/-- Copies what is to be kept, if the new database is newer. -/
def steps (m : Migrator σ) : MigrationM σ Unit := do
  let oldVersion ← onOld m.old.userVersion
  let newVersion ← onNew m.new.userVersion
  account fun _ => .start oldVersion newVersion
  if oldVersion < newVersion then
    let oldTables ← onOld m.old.snapshotTables
    let newTables ← onNew m.new.snapshotTables
    m.copyAll oldTables newTables

/-- Migrates, for the account of what was done. -/
def run (m : Migrator σ) : Attempt (Session σ × Session σ) MigrationReport :=
  ExceptT.mk fun (old, new) =>
    let (result, done) := m.steps.run ⟨old, new, .start 0 0⟩
    (result.map fun _ => done.report, (done.old, done.new))

/-- Whether the new database is newer. -/
def needsUpdate (m : Migrator σ) : Attempt (Session σ × Session σ) Bool :=
  ExceptT.mk fun (old, new) =>
    let check : MigrationM σ Bool := do
      let newVersion ← onNew m.new.userVersion
      let oldVersion ← onOld m.old.userVersion
      return oldVersion < newVersion
    let (result, done) := check.run ⟨old, new, .start 0 0⟩
    (result, (done.old, done.new))

end Migrator

end SqlMaps
