import SqlMaps.Proofs.Migration.Copying
import SqlMaps.Proofs.Store.Tables

/-! A migration under the permissive policy writes over rows with the same ids.

It adds no row: an UPDATE of an id that the new table does not have changes nothing, and the
row is counted as skipped. So the rows of the old database that the new one has afterwards
are those whose ids it had before (`represented_iff`). An id that is moved, since a column
that is the id is given another value, may be that of a row still to come; where columns keep
the ids apart from the values (`SameIds`), every row of the new table is written over once
at most. -/
namespace SqlMaps

namespace Relational

/-- A column that is the row id of `t` holds the row ids of `u`, if `u` has the column. -/
def SameIds (u t : Table) : Prop :=
  ∀ c ∈ t.columns, c.isId = true → c.name ∈ u.columnNames →
    ∀ r ∈ u.rows, u.valueOf r c.name = .integer r.id

/-- A row of `t` after the one of the rows of `u` with its id was written over it. -/
def writtenOver (u t : Table) (rows : List Row) (row : Row) : Row :=
  match rows.find? (·.id = row.id) with
  | none => row
  | some r => t.overwritten (projected u t r) row

/-- The table with the rows of another one written over those with their ids. -/
def WrittenOver (u t t' : Table) : Prop :=
  ∃ rows, t' = t.withRows rows ∧ (SameIds u t → rows = t.rows.map (writtenOver u t u.rows))

/-- A row stands in a table under its id, with its values in the shared columns. -/
def Represented (u t t' : Table) (r : Row) : Prop :=
  ∃ row ∈ t'.rows, row.id = r.id ∧ ∀ c ∈ sharedColumns u t, t'.valueOf row c = u.valueOf r c

theorem byName_matches : Migrator.ByName Matches WrittenOver where
  due h := ⟨h.name, h.visible⟩
  done := by
    rintro u t t' ⟨rows, rfl, -⟩
    rfl

theorem writtenOver_id (u t : Table) (rows : List Row) (row : Row) :
    (writtenOver u t rows row).id = row.id := by
  rw [writtenOver]
  split <;> rfl

/-- Ids are distinct, so a row that was written over is left alone by the rows to come. -/
theorem map_writtenOver_cons (u t : Table) {r : Row} {rest : List Row}
    (hids : ((r :: rest).map Row.id).Nodup) (now : List Row) :
    ((t.withRows now).overwriting r.id (projected u t r)).map (writtenOver u t rest) =
      now.map (writtenOver u t (r :: rest)) := by
  rw [Table.overwriting, List.map_map]
  refine List.map_congr_left fun row _ => ?_
  by_cases hid : row.id = r.id
  · have hnone : rest.find? (·.id = r.id) = none := by
      rw [List.map_cons, List.nodup_cons] at hids
      refine List.find?_eq_none.2 fun r' hr' he => hids.1 ?_
      exact of_decide_eq_true he ▸ List.mem_map_of_mem hr'
    have hkept : ((t.withRows now).overwritten (projected u t r) row).id = r.id := hid
    simp only [Function.comp_apply, if_pos hid, writtenOver, hkept, hnone]
    simp [hid]
  · have hid' : ¬ r.id = row.id := fun he => hid he.symm
    simp [writtenOver, hid, hid']

/-- A row of the old table is in the new one afterwards if a row had its id there before. -/
theorem represented_iff {u t t' : Table} (hids : (u.rows.map Row.id).Nodup)
    (h : WrittenOver u t t') (hsame : SameIds u t) {r : Row} (hr : r ∈ u.rows) :
    Represented u t t' r ↔ r.id ∈ t.rows.map Row.id := by
  obtain ⟨rows, rfl, hrows⟩ := h
  obtain rfl := hrows hsame
  constructor
  · rintro ⟨_, hrow, hid, -⟩
    obtain ⟨row, hmem, rfl⟩ := List.mem_map.1 hrow
    rw [← hid, writtenOver_id]
    exact List.mem_map_of_mem hmem
  · intro hmem
    obtain ⟨row, hrow, hid⟩ := List.mem_map.1 hmem
    have hfind : u.rows.find? (·.id = row.id) = some r := by
      rw [hid]
      cases hf : u.rows.find? (·.id = r.id) with
      | none => simpa using List.find?_eq_none.1 hf r hr
      | some r' =>
        have hsome := List.find?_some hf
        exact congrArg some (List.inj_on_of_nodup_map hids (List.mem_of_find?_eq_some hf) hr
          (of_decide_eq_true hsome))
    refine ⟨_, List.mem_map_of_mem hrow, (writtenOver_id ..).trans hid, fun c hc => ?_⟩
    have hcolumn : c ∈ t.columnNames := by simpa [sharedColumns] using (List.mem_filter.1 hc).2
    have hwritten : writtenOver u t u.rows row = t.overwritten (projected u t r) row := by
      rw [writtenOver, hfind]
    rw [hwritten]
    show t.valueOf _ c = _
    rw [Table.valueOf_overwritten hcolumn, lookup_projected, if_pos hc, Option.getD_some]

end Relational

namespace Migrator
open Attempt Relational
variable {σ : Type} {m : Migrator σ} {vo : Tabular m.old.engine} {vn : Tabular m.new.engine}
  {us ts : List Table}

/-- Settings that say nothing keep everything. -/
theorem ofRetention_default : RetentionPolicy.ofRetention .default = .permissive := rfl

theorem shouldCopy_permissive (hpolicy : m.policy = some .permissive) (r : MigrationReport)
    (u t : Table) : m.shouldCopy r u.snapshot t.snapshot = true ↔ u.rows ≠ [] := by
  simp [shouldCopy, hpolicy, RetentionPolicy.permissive, TableSnapshot.hasRows, Table.snapshot,
    List.length_pos_iff]

variable (vo us) in
/-- The whole row is written over the one with its id. -/
theorem gives_updateRow (hoverwrites : vn.Overwrites) {t : Table} (ht : t ∈ ts) (id : Int64)
    {row : Record} (hrow : row.entries ≠ []) :
    Gives (Stands vo vn us ts) (m.updateRow .permissive t.name id row) fun _ y => ∃ rows,
      ((∀ c ∈ t.columns, c.isId = true →
        ∀ w ∈ (asStored row.entries).lookup c.name, w = .integer id) →
          rows = t.overwriting id (asStored row.entries)) ∧
      Stands vo vn us (replace (t.withRows rows) ts) y := by
  refine gives_bind gives_get fun y₀ => gives_of_pre And.right ?_
  dsimp only
  -- the policy leaves no column out
  rw [List.filter_eq_self.2 (by exact fun _ _ => rfl)]
  simp only [List.isEmpty_iff, hrow, if_false]
  have hread : Sql.Command.read? (Sql.Command.update t.name row.entries id).text =
      some (.update t.name (asStored row.entries) id) := Sql.read?_update hrow t.name id
  refine gives_bind (gives_writeRows t (P := fun _ rows => (∀ c ∈ t.columns, c.isId = true →
    ∀ w ∈ (asStored row.entries).lookup c.name, w = .integer id) →
      rows = t.overwriting id (asStored row.entries)) fun s n s' hs he => ?_) fun changed => ?_
  · obtain ⟨rows, hshows, hrows⟩ := hoverwrites hs.sound hread he (hs.tables_eq ▸ ht) rfl
    exact ⟨rows, by simpa using hrows, hs.tables_eq ▸ hshows⟩
  · refine gives_of_exists fun rows => gives_of_fact fun hrows => ?_
    split
    · exact (gives_account _).post fun hy => ⟨rows, hrows, hy⟩
    · exact (gives_account _).post fun hy => ⟨rows, hrows, hy⟩

/-- What is read of a row for a table. -/
def recordOf (u t : Table) (r : Row) : Record :=
  ⟨Sql.rowIdAlias :: sharedColumns u t, .integer r.id :: (sharedColumns u t).map (u.valueOf r)⟩

theorem records_copied (u t : Table) : (copied u t).records = u.rows.map (recordOf u t) := by
  rw [RowSet.records, copied, List.map_map]
  rfl

/-- The permissive policy writes every row over the one with its id. -/
theorem placeRow_recordOf (u t : Table) (r : Row) (existing : List Int64) :
    m.placeRow .permissive t.name existing (recordOf u t r) =
      m.updateRow .permissive t.name r.id (recordOf u t r).tail := by
  rfl

/-- Where ids are kept apart from values, a row keeps its id when it is written over. -/
theorem keepsId {u t : Table} (hsame : SameIds u t) {r : Row} (hr : r ∈ u.rows) :
    ∀ c ∈ t.columns, c.isId = true →
      ∀ w ∈ (projected u t r).lookup c.name, w = .integer r.id := by
  intro c hc hid w hw
  rw [lookup_projected] at hw
  split at hw
  · rename_i hshared
    rw [← Option.some.inj hw]
    exact hsame c hc hid (List.mem_of_mem_filter hshared) r hr
  · cases hw

variable (vo us) in
/-- Rows are written over those with their ids, one after another. -/
theorem gives_placeRows (hoverwrites : vn.Overwrites) {u t : Table} (ht : t ∈ ts)
    (hshared : sharedColumns u t ≠ []) (existing : List Int64) {rest : List Row}
    (hrest : rest ⊆ u.rows) (hids : (rest.map Row.id).Nodup)
    (hstored : ∀ r ∈ rest, ∀ v ∈ r.values, Store.stored v = v) (now : List Row) :
    Gives (Stands vo vn us (replace (t.withRows now) ts))
      (m.placeRows .permissive t.name existing (rest.map (recordOf u t))) fun _ y => ∃ rows,
        (SameIds u t → rows = now.map (writtenOver u t rest)) ∧
        Stands vo vn us (replace (t.withRows rows) ts) y := by
  -- on the rows still to come, for whatever rows the table has by now
  induction rest generalizing now with
  | nil => exact (gives_pure _).post fun h => ⟨now, fun _ => (List.map_id now).symm, h.2⟩
  | cons r rest ih =>
    have hin : t.withRows now ∈ replace (t.withRows now) ts := mem_replace ht rfl
    have hentries : (recordOf u t r).tail.entries = projected u t r := rfl
    have hsome : (recordOf u t r).tail.entries ≠ [] := by
      simp [hentries, projected, hshared]
    have hone := gives_updateRow vo us hoverwrites hin r.id hsome
    rw [hentries, asStored_projected (hstored r (List.mem_cons_self ..))] at hone
    rw [List.map_cons, placeRows, placeRow_recordOf]
    refine gives_bind hone fun _ => gives_of_exists fun rows => gives_of_fact fun hrows => ?_
    rw [Table.withRows_withRows, replace_withRows]
    have hids' := hids
    rw [List.map_cons, List.nodup_cons] at hids
    refine (ih (fun r' hr' => hrest (List.mem_cons_of_mem r hr')) hids.2
      (fun r' hr' => hstored r' (List.mem_cons_of_mem r hr')) rows).post ?_
    rintro _ y ⟨rows', hrows', hy⟩
    refine ⟨rows', fun hsame => ?_, hy⟩
    rw [hrows' hsame, hrows (keepsId hsame (hrest (List.mem_cons_self ..))),
      map_writtenOver_cons u t hids']

/-- The rows that are read of the old table are written over those with their ids. -/
theorem gives_placeAll_permissive (hpolicy : m.policy = some .permissive)
    (hidentifies : vo.Identifies) (hoverwrites : vn.Overwrites) {u t : Table} (hu : u ∈ us)
    (ht : t ∈ ts) (hnames : (ts.map Table.name).Nodup) (hdue : Matches u t) :
    Gives (Stands vo vn us ts) (m.placeAll u.name (sharedColumns u t) (copied u t)) fun _ y =>
      ∃ t', WrittenOver u t t' ∧ Stands vo vn us (replace t' ts) y := by
  intro y a z hy h
  have hsound := hy.old.sound
  have hin := hy.old.tables_eq ▸ hu
  have hall : Gives (Stands vo vn us ts) (do
      let existing ← m.rowIds t.name
      m.placeRows .permissive t.name existing (u.rows.map (recordOf u t))) fun _ y =>
        ∃ rows, (SameIds u t → rows = t.rows.map (writtenOver u t u.rows)) ∧
          Stands vo vn us (replace (t.withRows rows) ts) y := by
    have hexisting : Gives (Stands vo vn us ts) (m.rowIds t.name) fun _ y =>
        Stands vo vn us ts y :=
      gives_bind (gives_queryNew (Sql.read?_rowIds t.name) rfl) fun rows =>
        gives_of_fact fun _ => (gives_settled _).post And.right
    refine gives_bind hexisting fun existing => ?_
    have hplaced := gives_placeRows vo us hoverwrites ht hdue.shared existing
      (List.Subset.refl u.rows) (hidentifies hsound u hin) (vo.stored hsound u hin) t.rows
    have hself : replace (t.withRows t.rows) ts = ts := replace_self ht hnames
    rwa [hself] at hplaced
  rw [placeAll, hpolicy, records_copied, hdue.name] at h
  obtain ⟨rows, hrows, hz⟩ := hall hy h
  exact ⟨_, ⟨rows, rfl, hrows⟩, hz⟩

/-- A migration under the permissive policy, or under settings that say nothing, that commits:
in every table of the new database that shares columns with one of its name that has rows,
these rows are written over those with their ids, and no row is added, so a row of the old
database is kept if and only if its id was there. Every other table is as it was. -/
theorem run_keepsMatchingRows {m : Migrator σ} (vo : Tabular m.old.engine)
    (vn : Tabular m.new.engine) (hidentifies : vo.Identifies) (hoverwrites : vn.Overwrites)
    (hpolicy : m.policy = some .permissive ∨ m.policy = some (.ofRetention .default))
    {old new old' new' : Session σ} {report : MigrationReport} (hold : vo.sound old.store)
    (hnew : vn.sound new.store) (hrun : m.run.run (old, new) = (.ok report, old', new'))
    (hcommitted : report.committed = true) :
    vo.tables old'.store = vo.tables old.store ∧ ∃ f : Table → Table,
      vn.tables new'.store = (vn.tables new.store).map f ∧
      ∀ t ∈ vn.tables new.store,
        Migrated Matches WrittenOver (vo.tables old.store) t (f t) ∧
        ∀ u ∈ vo.tables old.store, Matches u t → SameIds u t →
          ∀ r ∈ u.rows, Represented u t (f t) r ↔ r.id ∈ t.rows.map Row.id := by
  rw [ofRetention_default, or_self] at hpolicy
  have hcopies : CopiesOver m vo vn Matches WrittenOver :=
    copiesOver_of_placeAll
      (fun {r u t} hname hvisible hshared => (shouldCopy_permissive hpolicy r u t).trans
        ⟨fun hrows => ⟨hname, hvisible, hrows, hshared⟩, Matches.rows⟩)
      id (fun hu ht hnames => gives_placeAll_permissive hpolicy hidentifies hoverwrites hu ht hnames)
  obtain ⟨holdTables, f, hf, hmigrated⟩ :=
    tables_of_committed byName_matches hcopies hold hnew hrun hcommitted
  refine ⟨holdTables, f, hf, fun t ht => ⟨hmigrated t ht, fun u hu hmatches hsame r hr => ?_⟩⟩
  have hwritten : WrittenOver u t (f t) :=
    (hmigrated t ht).done_of_due byName_matches (vo.distinct hold) hu hmatches
  exact represented_iff (hidentifies hold u hu) hwritten hsame hr

/-- Names without anything else. -/
def names (rows : List Store.Row) : Store.Table :=
  ⟨"names", [⟨"name", false, false, .null⟩], rows⟩

def oldNames : Store.Table := names [⟨1, [.text "ann"]⟩, ⟨2, [.text "bob"]⟩]

def seededNames : Store.Table := names [⟨1, [.text "seed"]⟩]

theorem oldNames_plain : oldNames.Plain := by constructor <;> decide

theorem seededNames_plain : seededNames.Plain := by constructor <;> decide

theorem matches_oldNames (rows : List Store.Row) : Matches oldNames.shown (names rows).shown where
  name := rfl
  visible := by decide
  rows := by decide
  shared := by
    show sharedColumns oldNames.shown (names []).shown ≠ []
    decide

theorem sameIds_oldNames : SameIds oldNames.shown seededNames.shown := by
  intro c hc hid
  cases List.mem_singleton.1 hc
  cases hid

/-- The migration of both names into a table, under the permissive policy. -/
def keptNames (new : Store.Table) : Except RunError MigrationReport × Session Store.Connection ×
    Session Store.Connection :=
  let caller : Caller Store.Connection := ⟨Store.boundedEngine, .immediate, "main"⟩
  (Migrator.mk caller caller (some .permissive)).run.run
    (.start (.ofDatabase ⟨1, [oldNames]⟩ true), .start (.ofDatabase ⟨2, [new]⟩ false))

/-- The name with the id that the new table has is kept. -/
theorem run_keepsMatchingRows_seeded : ∃ report old' new',
    keptNames seededNames = (.ok report, old', new') ∧ report.committed = true ∧
      ∀ t ∈ Store.tablesOf new'.store,
        Represented oldNames.shown seededNames.shown t ⟨1, [.text "ann"]⟩ ∧
        ¬ Represented oldNames.shown seededNames.shown t ⟨2, [.text "bob"]⟩ := by
  have hok : (keptNames seededNames).1.toOption.map MigrationReport.committed = some true := by
    decide +kernel
  obtain ⟨report, old', new', hrun, hcommitted⟩ := exists_of_committed hok
  obtain ⟨-, f, hf, hall⟩ := run_keepsMatchingRows Store.tabular Store.tabular Store.identifies
    Store.overwrites (.inl rfl) (Store.sound_ofDatabase oldNames_plain _)
    (Store.sound_ofDatabase seededNames_plain _) hrun hcommitted
  refine ⟨report, old', new', hrun, hcommitted, fun t ht => ?_⟩
  have htables : Store.tablesOf new'.store = [f seededNames.shown] := hf
  rw [htables] at ht
  obtain rfl := List.mem_singleton.1 ht
  have hkept := (hall _ (List.mem_singleton_self _)).2 _ (List.mem_singleton_self _)
    (matches_oldNames _) sameIds_oldNames
  constructor
  · exact (hkept ⟨1, [.text "ann"]⟩ (List.mem_cons_self ..)).2 (by decide +kernel)
  · rw [hkept ⟨2, [.text "bob"]⟩ (List.mem_cons_of_mem _ (List.mem_cons_self ..))]
    decide +kernel

/-- A new table without rows is as empty afterwards: no row has the values of any old one. -/
theorem run_losesRows_unseeded : ∃ report old' new',
    keptNames (names []) = (.ok report, old', new') ∧ report.committed = true ∧
      Matches oldNames.shown (names []).shown ∧
      ∀ t ∈ Store.tablesOf new'.store, ∀ r ∈ oldNames.shown.rows, ¬ ∃ row ∈ t.rows,
        ∀ c ∈ sharedColumns oldNames.shown t, t.valueOf row c = oldNames.shown.valueOf r c := by
  obtain ⟨hok, hstore⟩ :
      (keptNames (names [])).1.toOption.map MigrationReport.committed = some true ∧
        (keptNames (names [])).2.2.store.current = some ⟨2, [names []]⟩ := by
    decide +kernel
  obtain ⟨report, old', new', hrun, hcommitted⟩ := exists_of_committed hok
  refine ⟨report, old', new', hrun, hcommitted, matches_oldNames _, ?_⟩
  rw [hrun] at hstore
  rintro t ht r - ⟨row, hrow, -⟩
  rw [Store.tablesOf_of_current hstore] at ht
  obtain rfl := List.mem_singleton.1 ht
  cases hrow

end Migrator

end SqlMaps
