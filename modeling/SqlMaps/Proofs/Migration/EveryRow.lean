import SqlMaps.Proofs.Migration.Copying
import SqlMaps.Proofs.Store.Tables

/-! A migration without a policy copies every row once.

A table is due by one of its name in the old database that has rows, where the new one has
none, if they share a column. What is read of a row there are its values in the shared
columns; they are written as literals, and read back as what they were, so the row that is
added holds them and in other columns what these begin with (`gives_copyRows`). -/
namespace SqlMaps

namespace Relational

/-- Whether a table of the old database is to be copied into one of the new database. -/
structure Due (u t : Table) : Prop extends Matches u t where
  empty : t.rows = []

/-- The values that a row of `u` has in the columns of `t`; what `u` does not have is what
the column begins with. -/
def carried (u t : Table) (row : Row) : List Value :=
  t.columns.map fun c => if c.name ∈ u.columnNames then u.valueOf row c.name else c.initial

/-- The table with the rows of another one, in their order. -/
def Filled (u t t' : Table) : Prop :=
  ∃ rows : List Row, t' = t.withRows rows ∧ rows.map Row.values = u.rows.map (carried u t)

theorem byName_due : Migrator.ByName Due Filled where
  due h := ⟨h.name, h.visible⟩
  done := by
    rintro u t t' ⟨rows, rfl, -⟩
    rfl

/-- What is given to a row that has the values of the shared columns. -/
theorem filled_projected (u t : Table) (row : Row) :
    t.filled (projected u t row) = carried u t row := by
  refine List.map_congr_left fun c hc => ?_
  have hcolumn : c.name ∈ t.columnNames := List.mem_map_of_mem hc
  rw [lookup_projected]
  by_cases h : c.name ∈ u.columnNames <;> simp [sharedColumns, h, hcolumn]

end Relational

namespace Migrator
open Attempt Relational
variable {σ : Type} {m : Migrator σ} {vo : Tabular m.old.engine} {vn : Tabular m.new.engine}
  {us ts : List Table}

section Adding
variable (vo us)

/-- A row that is added stands behind the others, with the values of its literals. -/
theorem gives_insert (happends : vn.Appends) {t : Table} (ht : t ∈ ts) {columns : List String}
    {values : List Value} (hcolumns : columns ≠ []) (hvalues : values ≠ []) :
    Gives (Stands vo vn us ts) (m.write (.insert t.name columns values)) fun _ y =>
      ∃ id, Stands vo vn us (replace (t.withRows
        (t.rows ++ [⟨id, t.filled (columns.zip (values.map Store.stored))⟩])) ts) y := by
  have hread := Sql.read?_insert hcolumns hvalues t.name
  refine (gives_writeRows t (P := fun _ rows => ∃ id,
    rows = t.rows ++ [⟨id, t.filled (columns.zip (values.map Store.stored))⟩]) ?_).post ?_
  · intro s n s' hs he
    obtain ⟨id, hs'⟩ := happends hs.sound hread he (hs.tables_eq ▸ ht) rfl
    simp only [List.map_map, Function.comp_def, stored_stored] at hs'
    exact ⟨_, ⟨id, rfl⟩, hs.tables_eq ▸ hs'⟩
  · rintro n y ⟨_, ⟨id, rfl⟩, hy⟩
    exact ⟨id, hy⟩

/-- Rows are added one behind the other. -/
theorem gives_copyRows (happends : vn.Appends) {t : Table} (ht : t ∈ ts) {columns : List String}
    (hcolumns : columns ≠ []) {rows : List (List Value)} (hrows : ∀ row ∈ rows, row.tail ≠ [])
    (before : List Row) :
    Gives (Stands vo vn us (replace (t.withRows before) ts)) (m.copyRows t.name columns rows)
      fun _ y => ∃ added : List Row,
        added.map Row.values =
          rows.map (fun row => t.filled (columns.zip (row.tail.map Store.stored))) ∧
        Stands vo vn us (replace (t.withRows (before ++ added)) ts) y := by
  -- on the rows still to come, behind whatever rows the table has by now
  induction rows generalizing before with
  | nil =>
    refine (gives_pure _).post fun h => ⟨[], rfl, ?_⟩
    rw [List.append_nil]
    exact h.2
  | cons row rows ih =>
    have hin : t.withRows before ∈ replace (t.withRows before) ts := mem_replace ht rfl
    have hwrite := gives_insert vo us happends hin hcolumns
      (hrows row (List.mem_cons_self ..))
    refine gives_bind (gives_discard hwrite) fun _ => gives_of_exists fun id => ?_
    simp only [Table.withRows_withRows, Table.withRows_rows, Table.filled_withRows, replace_withRows]
    refine gives_bind (gives_account _) fun _ => ?_
    refine (ih (fun r hr => hrows r (List.mem_cons_of_mem row hr)) _).post ?_
    rintro _ y ⟨added, hadded, hy⟩
    refine ⟨⟨id, _⟩ :: added, ?_, by rwa [List.append_assoc] at hy⟩
    rw [List.map_cons, List.map_cons, hadded]

end Adding

theorem shouldCopy_iff (hpolicy : m.policy = none) (r : MigrationReport) (u t : Table) :
    m.shouldCopy r u.snapshot t.snapshot = true ↔ u.rows ≠ [] ∧ t.rows = [] := by
  simp [shouldCopy, hpolicy, TableSnapshot.hasRows, Table.snapshot, List.length_pos_iff]

/-- Where tables of one name share columns, what is copied is what is due. -/
theorem shouldCopy_iff_due (hpolicy : m.policy = none) (r : MigrationReport) {u t : Table}
    (hname : u.name = t.name) (hvisible : isSystemTable u.name = false)
    (hshared : sharedColumns u t ≠ []) :
    m.shouldCopy r u.snapshot t.snapshot = true ↔ Due u t := by
  rw [shouldCopy_iff hpolicy]
  exact ⟨fun h => ⟨⟨hname, hvisible, h.1, hshared⟩, h.2⟩, fun h => ⟨h.rows, h.empty⟩⟩

/-- The rows that are read of the old table are those that the new one then holds. -/
theorem gives_placeAll (hpolicy : m.policy = none) (happends : vn.Appends) {u t : Table}
    (hu : u ∈ us) (ht : t ∈ ts) (hnames : (ts.map Table.name).Nodup) (hdue : Due u t) :
    Gives (Stands vo vn us ts) (m.placeAll u.name (sharedColumns u t) (copied u t)) fun _ y =>
      ∃ t', Filled u t t' ∧ Stands vo vn us (replace t' ts) y := by
  intro y a z hy h
  have hstored := vo.stored hy.old.sound u (hy.old.tables_eq ▸ hu)
  have hrows : ∀ row ∈ (copied u t).rows, row.tail ≠ [] := by simp [copied, hdue.shared]
  have hcopy := gives_copyRows vo us happends ht hdue.shared hrows []
  have hsame : replace (t.withRows []) ts = ts := by
    rw [← hdue.empty]
    exact replace_self ht hnames
  rw [hsame, ← hdue.name] at hcopy
  rw [placeAll, hpolicy] at h
  obtain ⟨added, hadded, hz⟩ := hcopy hy h
  refine ⟨_, ⟨added, rfl, ?_⟩, hz⟩
  rw [hadded, copied, List.map_map]
  refine List.map_congr_left fun row hrow => ?_
  show t.filled ((sharedColumns u t).zip (((sharedColumns u t).map (u.valueOf row)).map _)) = _
  rw [map_stored_valueOf (hstored row hrow)]
  exact filled_projected u t row

/-- A table is copied if it is due, and else left alone. -/
theorem copiesOver_everyRow (hpolicy : m.policy = none) (happends : vn.Appends) :
    CopiesOver m vo vn Due Filled :=
  copiesOver_of_placeAll (shouldCopy_iff_due hpolicy _) (fun h => h.toMatches)
    (fun hu ht hnames hdue => gives_placeAll hpolicy happends hu ht hnames hdue)

/-- A migration without a policy that commits: every table of the new database that is empty
and shares columns with one of its name that has rows now holds exactly these rows, each
once and in their order, with their values in the shared columns and with what the other
columns begin with; every other table is as it was, and so is the old database. -/
theorem run_copiesEveryRow {m : Migrator σ} (vo : Tabular m.old.engine) (vn : Tabular m.new.engine)
    (happends : vn.Appends) (hpolicy : m.policy = none) {old new old' new' : Session σ}
    {report : MigrationReport} (hold : vo.sound old.store) (hnew : vn.sound new.store)
    (hrun : m.run.run (old, new) = (.ok report, old', new')) (hcommitted : report.committed = true) :
    vo.tables old'.store = vo.tables old.store ∧ ∃ f : Table → Table,
      vn.tables new'.store = (vn.tables new.store).map f ∧
      ∀ t ∈ vn.tables new.store, Migrated Due Filled (vo.tables old.store) t (f t) :=
  tables_of_committed byName_due (copiesOver_everyRow hpolicy happends) hold hnew hrun hcommitted

/-- Two visits of a page, in a table that does not count them. -/
def uncounted : Store.Table :=
  ⟨"visits", [⟨"page", false, false, .null⟩], [⟨3, [.text "home"]⟩, ⟨7, [.text "home"]⟩]⟩

/-- A table that counts visits, and has none. -/
def counted : Store.Table :=
  ⟨"visits", [⟨"page", false, false, .null⟩, ⟨"count", false, true, .integer 1⟩], []⟩

theorem uncounted_plain : uncounted.Plain := by constructor <;> decide

theorem counted_plain : counted.Plain := by constructor <;> decide

theorem due_uncounted : Due uncounted.shown counted.shown where
  name := rfl
  visible := by decide
  rows := by decide
  shared := by decide
  empty := rfl

/-- The migration from the one to the other, without a policy. -/
def addedColumn : Except RunError MigrationReport × Session Store.Connection ×
    Session Store.Connection :=
  let caller : Caller Store.Connection := ⟨Store.boundedEngine, .immediate, "main"⟩
  (Migrator.mk caller caller none).run.run
    (.start (.ofDatabase ⟨1, [uncounted]⟩ true), .start (.ofDatabase ⟨2, [counted]⟩ false))

theorem run_copiesEveryRow_addedColumn : ∃ report old' new',
    addedColumn = (.ok report, old', new') ∧ report.committed = true ∧
      (Store.tablesOf new'.store).map (fun t => t.rows.map Row.values) =
        [[[.text "home", .integer 1], [.text "home", .integer 1]]] := by
  have hok : addedColumn.1.toOption.map MigrationReport.committed = some true := by
    decide +kernel
  obtain ⟨report, old', new', hrun, hcommitted⟩ := exists_of_committed hok
  obtain ⟨-, f, hf, hmigrated⟩ := run_copiesEveryRow Store.tabular Store.tabular Store.appends rfl
    (Store.sound_ofDatabase uncounted_plain _) (Store.sound_ofDatabase counted_plain _) hrun hcommitted
  refine ⟨report, old', new', hrun, hcommitted, ?_⟩
  have htables : Store.tablesOf new'.store = [f counted.shown] := hf
  have hnew : Migrated Due Filled [uncounted.shown] counted.shown (f counted.shown) :=
    hmigrated _ (List.mem_singleton_self _)
  obtain ⟨rows, hf', hrows⟩ := hnew.done_of_due byName_due (List.nodup_singleton _)
    (List.mem_singleton_self _) due_uncounted
  rw [htables, List.map_singleton, hf', Table.withRows_rows, hrows]
  decide +kernel

end Migrator

end SqlMaps
