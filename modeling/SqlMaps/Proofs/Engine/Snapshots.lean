import SqlMaps.Proofs.Engine.Tables
import SqlMaps.Proofs.Session.Outcomes
import SqlMaps.Proofs.Sql.StatementReading
import SqlMaps.Snapshot

/-! What a caller finds out about an engine that keeps tables.

Looking at a database gives its tables, without those that the database maintains itself
(`gives_snapshotTables`), and leaves everything as it is. -/
namespace SqlMaps
open Attempt Relational
variable {σ : Type}

/-- What is seen of a table from outside. -/
def Relational.Table.snapshot (t : Table) : TableSnapshot :=
  ⟨t.name, t.columnNames, t.rows.length⟩

/-- The names that the answer to the question for the tables holds. -/
theorem Relational.names_of_answers {tables : List Table} {rows : RowSet}
    (h : Answers tables .tableNames rows) :
    rows.records.filterMap (·.text? (.at 0)) = tables.map Table.name := by
  obtain ⟨column, rfl⟩ := h
  simp only [RowSet.records, List.map_map, List.filterMap_map]
  exact congrFun (List.filterMap_eq_map (f := Table.name)) tables

/-- Two tables of one name that share columns, where the first has rows. -/
structure Relational.Matches (u t : Table) : Prop where
  name : u.name = t.name
  visible : isSystemTable u.name = false
  rows : u.rows ≠ []
  shared : sharedColumns u t ≠ []

/-- The tables that the database does not maintain itself. -/
def Relational.visible (tables : List Table) : List Table :=
  tables.filter fun t => !isSystemTable t.name

namespace Caller
variable (c : Caller σ) (v : Tabular c.engine) {tables : List Table} {owner : Option Thread}

/-- The session shows the tables, and the thread owns its transaction. -/
structure Finds (tables : List Table) (owner : Option Thread) (s : Session σ) : Prop where
  tables : v.Shows tables s.store
  owner : s.owner? = owner

theorem gives_query {command : Sql.Command} (hread : Sql.Command.read? command.text = some command)
    (hasks : asks command = true) :
    Gives (c.Finds v tables owner) (c.query command.text) fun rows s =>
      Answers tables command rows ∧ c.Finds v tables owner s := by
  intro s rows s' hs h
  rw [run_query] at h
  obtain ⟨⟨hsound, htables⟩, howner⟩ := hs
  cases hq : c.engine.query command.text s.store with
  | mk r store =>
    rw [hq] at h
    cases h
    obtain ⟨hsound', htables', hanswers⟩ := v.query hsound hread hasks hq
    exact ⟨htables ▸ hanswers, ⟨hsound', htables'.trans htables⟩, howner⟩

theorem gives_userVersion :
    Gives (c.Finds v tables owner) c.userVersion fun _ s =>
      True ∧ c.Finds v tables owner s := by
  refine gives_bind (c.gives_query v Sql.read?_readVersion rfl) fun rows => gives_of_fact fun _ => ?_
  split
  · exact gives_throw _
  · exact (gives_settled _).post fun h => ⟨trivial, h.2⟩

theorem gives_queryAbout (about : String) {command : Sql.Command}
    (hread : Sql.Command.read? command.text = some command) (hasks : asks command = true) :
    Gives (c.Finds v tables owner) (c.queryAbout about command) fun rows s =>
      Answers tables command rows ∧ c.Finds v tables owner s := by
  intro s rows s' hs h
  obtain ⟨result, s₁, hquery, hrest⟩ := run_bind_eq_ok h
  rw [run_settle] at hquery
  cases hquery
  cases hr : (c.query command.text).run s with
  | mk r s₁ =>
    rw [hr] at hrest
    cases r with
    | ok rows' =>
      cases hrest
      exact c.gives_query v hread hasks hs hr
    | error e => cases e <;> cases hrest

theorem gives_snapshotTable {t : Table} (ht : t ∈ tables) :
    Gives (c.Finds v tables owner) (c.snapshotTable t.name) fun found s =>
      found = t.snapshot ∧ c.Finds v tables owner s := by
  refine gives_bind (c.gives_queryAbout v t.name (Sql.read?_columns t.name) rfl) fun empty => ?_
  refine gives_of_fact fun hcolumns => ?_
  refine gives_bind (c.gives_queryAbout v t.name (Sql.read?_countRows t.name) rfl) fun counted => ?_
  refine gives_of_fact fun hcount => ?_
  have hnames : empty.columns = t.columnNames := hcolumns t ht rfl
  obtain ⟨column, n, rfl, hn⟩ := hcount t ht rfl
  have hread : Record.integer ⟨[column], [.integer n]⟩ (.at 0) = .ok n := rfl
  refine gives_bind (gives_settled _) fun count => gives_of_fact fun hfound => ?_
  obtain rfl : n = count := Except.ok.inj (hread.symm.trans hfound)
  refine (gives_pure _).post fun h => ⟨h.1.trans ?_, h.2⟩
  rw [Table.snapshot, hnames, hn, Int.toNat_natCast]

theorem gives_snapshotAll {some : List Table} (hsome : some ⊆ tables) :
    Gives (c.Finds v tables owner) (c.snapshotAll (some.map Table.name)) fun found s =>
      found = (visible some).map Table.snapshot ∧ c.Finds v tables owner s := by
  induction some with
  | nil => exact (gives_pure _).post fun h => h
  | cons t rest ih =>
    have ht := hsome (List.mem_cons_self ..)
    have hrest := ih fun u hu => hsome (List.mem_cons_of_mem t hu)
    rw [List.map_cons, snapshotAll]
    split
    · rename_i hsystem
      simpa [visible, hsystem] using hrest
    · rename_i hsystem
      refine gives_bind (c.gives_snapshotTable v ht) fun found => gives_of_fact fun hfound => ?_
      refine gives_bind hrest fun others => gives_of_fact fun hothers => ?_
      refine (gives_pure _).post fun h => ⟨?_, h.2⟩
      rw [h.1, hfound, hothers]
      simp [visible, hsystem]

/-- Looking at a database shows its tables. -/
theorem gives_snapshotTables :
    Gives (c.Finds v tables owner) c.snapshotTables fun found s =>
      found = (visible tables).map Table.snapshot ∧ c.Finds v tables owner s := by
  refine gives_bind (c.gives_queryAbout v _ Sql.read?_tableNames rfl) fun rows => ?_
  refine gives_of_fact fun hrows => ?_
  rw [names_of_answers hrows]
  exact c.gives_snapshotAll v fun _ h => h

end Caller

end SqlMaps
