import Mathlib.Data.List.ReduceOption
import SqlMaps.Migration.Basic
import SqlMaps.Proofs.Session.Exchanges

/-! What has become of the rows and tables of a migration, and how it is counted.

Statements that copy are told by the words that they open with. What becomes of a row is the one
statement that it causes, or none, and each row is counted once, whatever that is
(`length_fates`). A `Tally` collects what has become of rows and tables, and tallies are entered
in the account one behind another (`MigrationReport.enter_append`). -/
namespace SqlMaps

/-! ### Statements that copy -/

namespace Exchange

/-- Whether the statement adds a row. -/
def isInsert (x : Exchange) : Bool :=
  Sql.opensWith "INSERT INTO " x.sql

/-- Whether the statement changes rows. -/
def isUpdate (x : Exchange) : Bool :=
  Sql.opensWith "UPDATE " x.sql

/-- Whether the statement adds a row or changes rows. -/
def isWrite (x : Exchange) : Bool :=
  x.isInsert || x.isUpdate

/-- Whether the statement asks for the rows of a table that is copied. -/
def isCopy (x : Exchange) : Bool :=
  Sql.opensWith ("SELECT ROWID AS " ++ Sql.rowIdAlias ++ ", ") x.sql

/-- The rows that were answered. -/
def rows (x : Exchange) : List (List Value) :=
  match x.answer with
  | .rows rs => rs.rows
  | _ => []

/-- Whether the answer was that rows have been changed. -/
def changesRow (x : Exchange) : Bool :=
  match x.answer with
  | .changed n => 0 < n
  | _ => false

/-- An update that found no row to change. -/
def updatesNothing (x : Exchange) : Bool :=
  x.isUpdate && !x.changesRow

/-- An update that found a row to change. -/
def updatesRow (x : Exchange) : Bool :=
  x.isUpdate && x.changesRow

section
variable (channel : Channel) (command : Sql.Command) (answer : Answer)

@[simp] theorem isInsert_text : isInsert ⟨channel, command.text, answer⟩ =
    decide (command.opening = "INSERT INTO ") :=
  Sql.opensWith_text (by simp [Sql.copyingStarts]) command

@[simp] theorem isUpdate_text : isUpdate ⟨channel, command.text, answer⟩ =
    decide (command.opening = "UPDATE ") :=
  Sql.opensWith_text (by simp [Sql.copyingStarts]) command

@[simp] theorem isCopy_text : isCopy ⟨channel, command.text, answer⟩ =
    decide (command.opening = "SELECT ROWID AS " ++ Sql.rowIdAlias ++ ", ") :=
  Sql.opensWith_text (by simp [Sql.copyingStarts]) command

end

theorem isWrite_of_aside {x : Exchange} (h : Sql.Aside x.sql) : x.isWrite = false := by
  simp only [isWrite, isInsert, isUpdate, h _ (show "INSERT INTO " ∈ Sql.copyingStarts by decide),
    h _ (show "UPDATE " ∈ Sql.copyingStarts by decide), Bool.or_self]

theorem isCopy_of_aside {x : Exchange} (h : Sql.Aside x.sql) : x.isCopy = false :=
  h _ (by simp [Sql.copyingStarts])

theorem isWrite_of_isInsert {x : Exchange} (h : x.isInsert = true) : x.isWrite = true := by
  simp [isWrite, h]

theorem isWrite_of_updatesRow {x : Exchange} (h : x.updatesRow = true) : x.isWrite = true := by
  simp [isWrite, (Bool.and_eq_true_iff.1 h).1]

theorem isWrite_of_updatesNothing {x : Exchange} (h : x.updatesNothing = true) :
    x.isWrite = true := by
  simp [isWrite, (Bool.and_eq_true_iff.1 h).1]

/-- No statement opens with both words. -/
theorem isUpdate_of_isInsert {x : Exchange} (h : x.isInsert = true) : x.isUpdate = false := by
  rw [isInsert, Sql.opensWith, List.isPrefixOf_iff_prefix] at h
  obtain ⟨rest, hrest⟩ := h
  rw [isUpdate, Sql.opensWith, ← hrest]
  rfl

end Exchange

/-- What became of a row is that it was added. -/
def wasAdded (fate : Option Exchange) : Bool :=
  fate.any Exchange.isInsert

/-- What became of a row is that it was written over another. -/
def wasReplaced (fate : Option Exchange) : Bool :=
  fate.any Exchange.updatesRow

/-- What became of a row is nothing: it caused no statement, or one that changed nothing. -/
def wasLeft (fate : Option Exchange) : Bool :=
  fate.all Exchange.updatesNothing

/-- What has become of rows and tables. -/
@[ext]
structure Tally where
  /-- The queries for the rows of tables. -/
  copies : List Exchange := []
  /-- How many tables were copied. -/
  tables : Nat := 0
  /-- The tables that were not. -/
  left : List String := []
  /-- What became of each row: the statement that it caused, if it caused one. -/
  fates : List (Option Exchange) := []

namespace Tally

instance : Append Tally where
  append a b := ⟨a.copies ++ b.copies, a.tables + b.tables, a.left ++ b.left, a.fates ++ b.fates⟩

variable (a b : Tally)

@[simp] theorem copies_append : (a ++ b).copies = a.copies ++ b.copies := rfl

@[simp] theorem tables_append : (a ++ b).tables = a.tables + b.tables := rfl

@[simp] theorem left_append : (a ++ b).left = a.left ++ b.left := rfl

@[simp] theorem fates_append : (a ++ b).fates = a.fates ++ b.fates := rfl

@[simp] theorem nothing_append : {} ++ a = a :=
  Tally.ext rfl (Nat.zero_add a.tables) rfl rfl

@[simp] theorem append_nothing : a ++ {} = a :=
  Tally.ext (List.append_nil _) rfl (List.append_nil _) (List.append_nil _)

end Tally

/-- The account when a tally is entered. -/
def MigrationReport.enter (r : MigrationReport) (t : Tally) : MigrationReport :=
  { r with
    tables := r.tables + t.tables
    skippedTables := r.skippedTables ++ t.left
    inserted := r.inserted + t.fates.countP wasAdded
    updated := r.updated + t.fates.countP wasReplaced
    skipped := r.skipped + t.fates.countP wasLeft }

theorem MigrationReport.enter_append (r : MigrationReport) (a b : Tally) :
    r.enter (a ++ b) = (r.enter a).enter b := by
  simp only [enter, Tally.tables_append, Tally.left_append, Tally.fates_append,
    List.countP_append, Nat.add_assoc, List.append_assoc]

/-- What is entered in a fresh account is all there is. -/
theorem MigrationReport.enter_start (v v' : Int64) (t : Tally) :
    (start v v').enter t = ⟨.upToDate, v, v', t.tables, t.left, t.fates.countP wasAdded,
      t.fates.countP wasReplaced, t.fates.countP wasLeft, false⟩ := by
  simp [enter, start]

/-! ### Counting rows -/

section Fates
variable {fates : List (Option Exchange)}

theorem countP_any (p : Exchange → Bool) (fates : List (Option Exchange)) :
    fates.countP (·.any p) = fates.reduceOption.countP p := by
  induction fates with
  | nil => rfl
  | cons fate rest ih =>
    cases fate with
    | none => simpa using ih
    | some x => simp [List.countP_cons, ih]

theorem countP_all (p : Exchange → Bool) (fates : List (Option Exchange)) :
    fates.countP (·.all p) = fates.count none + fates.reduceOption.countP p := by
  induction fates with
  | nil => rfl
  | cons fate rest ih =>
    cases fate with
    | none =>
      simp only [List.countP_cons, List.count_cons_self, Option.all_none, if_true, ih,
        List.reduceOption_cons_of_none]
      omega
    | some x =>
      simp only [List.countP_cons, List.count_cons, Option.all_some, ih,
        List.reduceOption_cons_of_some, reduceCtorEq, beq_iff_eq, if_false]
      omega

/-- A write adds a row, or changes one, or changes nothing. -/
theorem isWrite_cases {x : Exchange} (h : x.isWrite = true) :
    (x.isInsert = true ∧ x.updatesRow = false ∧ x.updatesNothing = false) ∨
      (x.isInsert = false ∧ x.updatesRow = true ∧ x.updatesNothing = false) ∨
      (x.isInsert = false ∧ x.updatesRow = false ∧ x.updatesNothing = true) := by
  simp only [Exchange.updatesRow, Exchange.updatesNothing]
  cases hinsert : x.isInsert with
  | true => simp [Exchange.isUpdate_of_isInsert hinsert]
  | false =>
    have hupdate : x.isUpdate = true := by simpa [Exchange.isWrite, hinsert] using h
    cases hchanges : x.changesRow <;> simp [hupdate]

/-- Each row is counted once, whatever became of it. -/
theorem length_fates (h : ∀ x ∈ fates.reduceOption, x.isWrite = true) :
    fates.countP wasAdded + fates.countP wasReplaced + fates.countP wasLeft = fates.length := by
  induction fates with
  | nil => rfl
  | cons fate rest ih =>
    cases fate with
    | none =>
      have hrest := ih (by simpa using h)
      simp only [List.countP_cons, List.length_cons, ← hrest, wasAdded, wasReplaced, wasLeft,
        Option.any_none, Option.all_none, if_true, Bool.false_eq_true, if_false]
      omega
    | some x =>
      rw [List.reduceOption_cons_of_some, List.forall_mem_cons] at h
      have hrest := ih h.2
      simp only [List.countP_cons, List.length_cons, ← hrest, wasAdded, wasReplaced, wasLeft,
        Option.any_some, Option.all_some]
      rcases isWrite_cases h.1 with ⟨hi, hr, hn⟩ | ⟨hi, hr, hn⟩ | ⟨hi, hr, hn⟩ <;>
        simp only [hi, hr, hn, if_true, Bool.false_eq_true, if_false] <;> omega

end Fates

end SqlMaps
