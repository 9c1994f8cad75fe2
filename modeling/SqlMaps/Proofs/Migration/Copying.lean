import SqlMaps.Proofs.Engine.Snapshots
import SqlMaps.Proofs.Migration.AllOrNothing

/-! What a migration that commits has made of the tables.

A migration goes through the tables of the old database one after another. What it does
with one of them is a question about that table and the one of its name in the new database:
it is `due` and then `done`, or nothing happens. Names are distinct, so no table of the new
database is touched twice, and what holds of one step holds of all (`gives_copyTables`).
Around the steps stands a transaction, which leaves the tables as they are
(`tables_of_committed`). -/
namespace SqlMaps.Migrator
open Attempt Relational
variable {σ : Type} {m : Migrator σ} {vo : Tabular m.old.engine} {vn : Tabular m.new.engine}
  {us ts : List Table}

/-! ### Steps -/

/-- A migration on its way: the old tables, and the new ones in a transaction that it owns. -/
structure Stands (vo : Tabular m.old.engine) (vn : Tabular m.new.engine) (us ts : List Table)
    (y : Migration σ) : Prop where
  old : vo.Shows us y.old.store
  new : m.new.Finds vn ts (some m.new.thread) y.new

theorem gives_account (f : MigrationReport → MigrationReport) :
    Gives (Stands vo vn us ts) (account f) fun _ y => Stands vo vn us ts y := by
  intro y u z hy h
  cases h
  exact ⟨hy.old, hy.new⟩

theorem gives_queryOld {command : Sql.Command}
    (hread : Sql.Command.read? command.text = some command) (hasks : asks command = true) :
    Gives (Stands vo vn us ts) (onOld (m.old.query command.text)) fun rows y =>
      Answers us command rows ∧ Stands vo vn us ts y := by
  intro y rows z hy h
  cases hr : (m.old.query command.text).run y.old with
  | mk r s =>
    rw [run_onOld hr] at h
    cases h
    obtain ⟨hanswers, hfinds⟩ := m.old.gives_query vo hread hasks ⟨hy.old, rfl⟩ hr
    exact ⟨hanswers, hfinds.tables, hy.new⟩

theorem gives_queryNew {command : Sql.Command}
    (hread : Sql.Command.read? command.text = some command) (hasks : asks command = true) :
    Gives (Stands vo vn us ts) (onNew (m.new.query command.text)) fun rows y =>
      Answers ts command rows ∧ Stands vo vn us ts y := by
  intro y rows z hy h
  cases hr : (m.new.query command.text).run y.new with
  | mk r s =>
    rw [run_onNew hr] at h
    cases h
    obtain ⟨hanswers, hfinds⟩ := m.new.gives_query vn hread hasks hy.new hr
    exact ⟨hanswers, hy.old, hfinds⟩

/-- A write inside the transaction does what the engine does with its statement. -/
theorem gives_write {command : Sql.Command} {Q : Nat → List Table → Prop}
    (hwrite : ∀ s n s', vn.Shows ts s → m.new.engine.execute command.text s = (.ok n, s') →
      ∃ ts', Q n ts' ∧ vn.Shows ts' s') :
    Gives (Stands vo vn us ts) (m.write command) fun n y =>
      ∃ ts', Q n ts' ∧ Stands vo vn us ts' y := by
  intro y n z hy h
  obtain ⟨t, ht, howner⟩ := Option.map_eq_some_iff.1 hy.new.owner
  have hrun := m.new.run_execute_of_owner command.text ht howner
  rw [write, run_onNew hrun] at h
  cases he : m.new.engine.execute command.text y.new.store with
  | mk r store =>
    rw [he] at h
    cases h
    obtain ⟨ts', hts', hshows⟩ := hwrite _ _ _ hy.new.tables he
    exact ⟨ts', hts', hy.old, hshows, hy.new.owner⟩

/-- A write to one table changes its rows as the engine does. -/
theorem gives_writeRows {command : Sql.Command} (t : Table) {P : Nat → List Row → Prop}
    (hwrite : ∀ s n s', vn.Shows ts s → m.new.engine.execute command.text s = (.ok n, s') →
      ∃ rows, P n rows ∧ vn.Shows (replace (t.withRows rows) ts) s') :
    Gives (Stands vo vn us ts) (m.write command) fun n y =>
      ∃ rows, P n rows ∧ Stands vo vn us (replace (t.withRows rows) ts) y := by
  refine (gives_write (Q := fun n ts' => ∃ rows, P n rows ∧ ts' = replace (t.withRows rows) ts)
    fun s n s' hs he => ?_).post ?_
  · obtain ⟨rows, hrows, hshows⟩ := hwrite s n s' hs he
    exact ⟨_, ⟨rows, hrows, rfl⟩, hshows⟩
  · rintro n y ⟨_, ⟨rows, hrows, rfl⟩, hy⟩
    exact ⟨rows, hrows, hy⟩

/-! ### One table after another -/

/-- What becomes of a table of the new database: it is done to it what is due by a table of
the old one, or it is kept. -/
inductive Migrated (due : Table → Table → Prop) (done : Table → Table → Table → Prop)
    (us : List Table) : Table → Table → Prop where
  | copied {u t t' : Table} : u ∈ us → due u t → done u t t' → Migrated due done us t t'
  | kept {t : Table} : (∀ u ∈ us, ¬ due u t) → Migrated due done us t t

/-- What is done to a table by one of its name. -/
structure ByName (due : Table → Table → Prop) (done : Table → Table → Table → Prop) : Prop where
  due : ∀ {u t}, due u t → u.name = t.name ∧ isSystemTable u.name = false
  done : ∀ {u t t'}, done u t t' → t'.name = t.name

section Loop
variable {due : Table → Table → Prop} {done : Table → Table → Table → Prop}

theorem Migrated.name_eq {t t' : Table} (hby : ByName due done) (h : Migrated due done us t t') :
    t'.name = t.name := by
  cases h with
  | copied _ _ hdone => exact hby.done hdone
  | kept => rfl

/-- A further table of the old database changes nothing for a table that is not due by it. -/
theorem Migrated.append_of_not_due {u t t' : Table} (h : Migrated due done us t t')
    (hdue : ¬ due u t) : Migrated due done (us ++ [u]) t t' := by
  cases h with
  | copied hu hdue' hdone => exact .copied (List.mem_append_left _ hu) hdue' hdone
  | kept hnot =>
    refine .kept fun w hw => ?_
    rcases List.mem_append.1 hw with hw | hw
    · exact hnot w hw
    · rw [List.mem_singleton.1 hw]
      exact hdue

/-- Tables of other names have left a table alone. -/
theorem Migrated.eq_of_names {t t' : Table} (hby : ByName due done) (h : Migrated due done us t t')
    (hnames : t.name ∉ us.map Table.name) : t' = t := by
  cases h with
  | copied hu hdue _ =>
    exact absurd (List.mem_map.2 ⟨_, hu, (hby.due hdue).1⟩) hnames
  | kept => rfl

/-- Names tell the tables apart by which something may be due. -/
theorem Migrated.done_of_due {u t t' : Table} (h : Migrated due done us t t')
    (hby : ByName due done) (hnames : (us.map Table.name).Nodup) (hu : u ∈ us) (hdue : due u t) :
    done u t t' := by
  cases h with
  | copied hw hdue' hdone =>
    have hname := (hby.due hdue').1.trans (hby.due hdue).1.symm
    exact List.inj_on_of_nodup_map hnames hw hu hname ▸ hdone
  | kept hnot => exact absurd hdue (hnot u hu)

/-- What the database maintains itself is never due. -/
theorem Migrated.of_visible {t t' : Table} (hby : ByName due done)
    (h : Migrated due done (visible us) t t') : Migrated due done us t t' := by
  cases h with
  | copied hu hdue hdone => exact .copied (List.mem_of_mem_filter hu) hdue hdone
  | kept hnot =>
    refine .kept fun u hu hdue => hnot u ?_ hdue
    exact List.mem_filter.2 ⟨hu, by simp [(hby.due hdue).2]⟩

/-- The tables of the new database as the tables `past` of the old one have left them. -/
def Reached (vo : Tabular m.old.engine) (vn : Tabular m.new.engine) (us ts : List Table)
    (due : Table → Table → Prop) (done : Table → Table → Table → Prop) (past : List Table)
    (y : Migration σ) : Prop :=
  ∃ f : Table → Table, (∀ t ∈ ts, Migrated due done past t (f t)) ∧
    Stands vo vn us (ts.map f) y

theorem gives_accountReached {past : List Table} (f : MigrationReport → MigrationReport) :
    Gives (Reached vo vn us ts due done past) (account f) fun _ y =>
      Reached vo vn us ts due done past y := by
  rintro y u z ⟨g, hg, hy⟩ h
  exact ⟨g, hg, gives_account f hy h⟩

/-- Copies a table over another one of its name, if it is to be copied. -/
def copyOver (m : Migrator σ) (old new : TableSnapshot) : MigrationM σ Bool := do
  if m.shouldCopy (← get).report old new then m.copyTable old new else return false

theorem copyInto_of_none {newTables : List TableSnapshot} {old : TableSnapshot}
    (h : newTables.reverse.find? (·.name = old.name) = none) :
    m.copyInto newTables old = pure false := by
  rw [copyInto, h]

theorem copyInto_of_some {newTables : List TableSnapshot} {old new : TableSnapshot}
    (h : newTables.reverse.find? (·.name = old.name) = some new) :
    m.copyInto newTables old = m.copyOver old new := by
  rw [copyInto, h]
  rfl

/-- What copying over does to two tables of one name. -/
def CopiesOver (m : Migrator σ) (vo : Tabular m.old.engine) (vn : Tabular m.new.engine)
    (due : Table → Table → Prop) (done : Table → Table → Table → Prop) : Prop :=
  ∀ {us ts : List Table} {u t : Table}, u ∈ us → t ∈ ts → u.name = t.name →
    isSystemTable u.name = false → (ts.map Table.name).Nodup →
    Gives (Stands vo vn us ts) (m.copyOver u.snapshot t.snapshot) fun _ y =>
      (¬ due u t ∧ Stands vo vn us ts y) ∨
        due u t ∧ ∃ t', done u t t' ∧ Stands vo vn us (replace t' ts) y

/-- The table that is found for a table of the old database is that of its name. -/
theorem find?_snapshot (u : Table) (hu : isSystemTable u.name = false) (ts : List Table) :
    (((visible ts).map Table.snapshot).reverse.find? (·.name = u.snapshot.name) = none ∧
      ∀ t ∈ ts, u.name ≠ t.name) ∨
    ∃ t ∈ ts, u.name = t.name ∧
      ((visible ts).map Table.snapshot).reverse.find? (·.name = u.snapshot.name) = some t.snapshot := by
  cases hfind : ((visible ts).map Table.snapshot).reverse.find? (·.name = u.snapshot.name) with
  | none =>
    refine .inl ⟨rfl, fun t ht hname => ?_⟩
    have hvisible : t ∈ visible ts := List.mem_filter.2 ⟨ht, by simp [← hname, hu]⟩
    have hnot := List.find?_eq_none.1 hfind t.snapshot
      (List.mem_reverse.2 (List.mem_map_of_mem hvisible))
    exact hnot (by simp [Table.snapshot, hname])
  | some found =>
    obtain ⟨t, ht, rfl⟩ := List.mem_map.1 (List.mem_reverse.1 (List.mem_of_find?_eq_some hfind))
    have hfound := List.find?_some hfind
    have hname : t.name = u.name := of_decide_eq_true hfound
    exact .inr ⟨t, List.mem_of_mem_filter ht, hname.symm, rfl⟩

/-- One table of the old database: what is due by it is done, to the one table of its name. -/
theorem gives_copyInto (hby : ByName due done) (hcopy : CopiesOver m vo vn due done)
    {past : List Table} {u : Table} (hu : u ∈ us) (hvisible : isSystemTable u.name = false)
    (hfresh : u.name ∉ past.map Table.name) (hnames : (ts.map Table.name).Nodup) :
    Gives (Reached vo vn us ts due done past)
      (m.copyInto ((visible ts).map Table.snapshot) u.snapshot)
      fun _ y => Reached vo vn us ts due done (past ++ [u]) y := by
  rintro y copied z ⟨f, hf, hy⟩ h
  -- where nothing is due, the tables are as they were
  have hkept : (∀ t ∈ ts, ¬ due u t) → Stands vo vn us (ts.map f) z →
      Reached vo vn us ts due done (past ++ [u]) z := fun hnot hz =>
    ⟨f, fun t ht => (hf t ht).append_of_not_due (hnot t ht), hz⟩
  have hfnames : (ts.map f).map Table.name = ts.map Table.name := by
    rw [List.map_map]
    exact List.map_congr_left fun t ht => (hf t ht).name_eq hby
  rcases find?_snapshot u hvisible ts with ⟨hfind, hnone⟩ | ⟨t, ht, hname, hfind⟩
  · rw [copyInto_of_none hfind] at h
    cases h
    exact hkept (fun t ht hdue => hnone t ht (hby.due hdue).1) hy
  · rw [copyInto_of_some hfind] at h
    have hother : ∀ t' ∈ ts, t'.name = t.name → t' = t := fun t' ht' hname' =>
      List.inj_on_of_nodup_map hnames ht' ht hname'
    have hsame : f t = t := (hf t ht).eq_of_names hby (hname ▸ hfresh)
    have hin : t ∈ ts.map f := hsame ▸ List.mem_map_of_mem ht
    rcases hcopy hu hin hname hvisible (hfnames ▸ hnames) hy h with ⟨hnot, hz⟩ | ⟨hdue, t', hdone, hz⟩
    · refine hkept (fun t' ht' hdue => hnot ?_) hz
      exact hother t' ht' ((hby.due hdue).1.symm.trans hname) ▸ hdue
    · refine ⟨fun a => if (f a).name = t'.name then t' else f a, fun a ha => ?_, ?_⟩
      · dsimp only
        split
        · rename_i heq
          obtain rfl := hother a ha (((hf a ha).name_eq hby).symm.trans (heq.trans (hby.done hdone)))
          exact .copied (List.mem_append_right _ (List.mem_singleton_self u)) hdue hdone
        · rename_i hne
          refine (hf a ha).append_of_not_due fun hdue' => hne ?_
          rw [(hf a ha).name_eq hby, hby.done hdone, ← (hby.due hdue').1, hname]
      · rwa [replace, List.map_map] at hz

/-- All tables of the old database, one after another. -/
theorem gives_copyTables (hby : ByName due done) (hcopy : CopiesOver m vo vn due done)
    (hnames : (ts.map Table.name).Nodup) {past rest : List Table} (hrest : rest ⊆ us)
    (hvisible : ∀ u ∈ rest, isSystemTable u.name = false)
    (hdistinct : ((past ++ rest).map Table.name).Nodup) :
    Gives (Reached vo vn us ts due done past)
      (m.copyTables ((visible ts).map Table.snapshot) (rest.map Table.snapshot))
      fun _ y => Reached vo vn us ts due done (past ++ rest) y := by
  -- on the tables still to come; `Reached` is what those behind have done
  induction rest generalizing past with
  | nil =>
    rw [List.append_nil]
    exact (gives_pure _).post fun h => h.2
  | cons u rest ih =>
    have hassoc : past ++ u :: rest = past ++ [u] ++ rest := by simp
    have hfresh : u.name ∉ past.map Table.name := by
      rw [List.map_append, List.nodup_append] at hdistinct
      exact fun h => hdistinct.2.2 _ h _ (List.mem_cons_self ..) rfl
    have hstep := gives_copyInto hby hcopy (hrest (List.mem_cons_self ..))
      (hvisible u (List.mem_cons_self ..)) hfresh hnames
    rw [hassoc] at hdistinct ⊢
    have hmore := ih (fun w hw => hrest (List.mem_cons_of_mem u hw))
      (fun w hw => hvisible w (List.mem_cons_of_mem u hw)) hdistinct
    refine gives_bind hstep fun copied => ?_
    cases copied with
    | true => exact gives_bind (gives_accountReached _) fun _ => hmore
    | false => exact gives_bind (gives_accountReached _) fun _ => hmore

end Loop

/-! ### One table -/

/-- What is read of a table for another one that it shares columns with. -/
def copied (u t : Table) : RowSet :=
  ⟨Sql.rowIdAlias :: sharedColumns u t,
    u.rows.map fun row => .integer row.id :: (sharedColumns u t).map (u.valueOf row)⟩

/-- Puts what was read of a table into the table of its name. -/
def placeAll (m : Migrator σ) (table : String) (columns : List String) (rows : RowSet) :
    MigrationM σ Unit := do
  match m.policy with
  | none => m.copyRows table columns rows.rows
  | some policy =>
    let existing ← m.rowIds table
    m.placeRows policy table existing rows.records

theorem copyTable_of_shared {u t : Table} (h : sharedColumns u t ≠ []) :
    m.copyTable u.snapshot t.snapshot = do
      let rows ← onOld (m.old.query (Sql.Command.copyRows u.name (sharedColumns u t)).text)
      m.placeAll u.name (sharedColumns u t) rows
      return true := by
  have hcolumns : u.snapshot.sharedColumns t.snapshot = sharedColumns u t := rfl
  rw [copyTable, hcolumns]
  simp only [List.isEmpty_iff, h, if_false, placeAll]
  cases m.policy with
  | none => rfl
  | some policy =>
    simp only [bind_assoc]
    rfl

theorem copyTable_of_none_shared {u t : Table} (h : sharedColumns u t = []) :
    m.copyTable u.snapshot t.snapshot = pure false := by
  have hcolumns : u.snapshot.sharedColumns t.snapshot = sharedColumns u t := rfl
  rw [copyTable, hcolumns, h]
  rfl

/-- A table is copied over if it is due, and else left alone. -/
theorem copiesOver_of_placeAll {due : Table → Table → Prop} {done : Table → Table → Table → Prop}
    (hshould : ∀ {r u t}, u.name = t.name → isSystemTable u.name = false → sharedColumns u t ≠ [] →
      (m.shouldCopy r u.snapshot t.snapshot = true ↔ due u t))
    (hmatches : ∀ {u t}, due u t → Matches u t)
    (hplace : ∀ {us ts : List Table} {u t : Table}, u ∈ us → t ∈ ts → (ts.map Table.name).Nodup →
      due u t → Gives (Stands vo vn us ts)
        (m.placeAll u.name (sharedColumns u t) (copied u t)) fun _ y =>
          ∃ t', done u t t' ∧ Stands vo vn us (replace t' ts) y) :
    CopiesOver m vo vn due done := by
  intro us ts u t hu ht hname hvisible hnames y₀ b z hy h
  obtain ⟨y, _, hget, hrest⟩ := run_bind_eq_ok h
  cases hget
  by_cases hcopy : m.shouldCopy y₀.report u.snapshot t.snapshot = true
  · rw [if_pos hcopy] at hrest
    by_cases hshared : sharedColumns u t = []
    · rw [copyTable_of_none_shared hshared] at hrest
      cases hrest
      exact .inl ⟨fun hdue => (hmatches hdue).shared hshared, hy⟩
    · have hdue := (hshould hname hvisible hshared).1 hcopy
      have hsubset : sharedColumns u t ⊆ u.columnNames := fun c hc => List.mem_of_mem_filter hc
      rw [copyTable_of_shared hshared] at hrest
      have hcopied : Gives (Stands vo vn us ts) (do
          let rows ← onOld (m.old.query (Sql.Command.copyRows u.name (sharedColumns u t)).text)
          m.placeAll u.name (sharedColumns u t) rows
          return true) fun _ y => ∃ t', done u t t' ∧ Stands vo vn us (replace t' ts) y := by
        refine gives_bind (gives_queryOld (Sql.read?_copyRows hshared u.name) rfl) fun rows => ?_
        refine gives_of_fact fun hrows => ?_
        obtain rfl := hrows u hu rfl hsubset
        exact gives_bind (hplace hu ht hnames hdue) fun _ => (gives_pure _).post And.right
      exact .inr ⟨hdue, hcopied hy hrest⟩
  · rw [if_neg hcopy] at hrest
    cases hrest
    exact .inl ⟨fun hdue =>
      hcopy ((hshould hname hvisible (hmatches hdue).shared).2 hdue), hy⟩

/-! ### The transaction around the steps -/

/-- A level that was begun belongs to the thread, and the tables are as they were. -/
theorem gives_begin (mode : TransactionMode) {y z : Migration σ} (hy : vn.Shows ts y.new.store)
    (h : (onNew (m.new.begin mode)).run y = (.ok (), z)) :
    z.old = y.old ∧ m.new.Finds vn ts (some m.new.thread) z.new := by
  cases hr : (m.new.begin mode).run y.new with
  | mk r s =>
    rw [run_onNew hr] at h
    cases h
    refine ⟨rfl, ?_⟩
    cases m.new.acquired_of_begin hr with
    | begun _ hbatch =>
      obtain ⟨hsound, htables⟩ := vn.bracket hy.sound
        (Sql.read?_text (c := .begin mode) trivial) (.inr ⟨mode, rfl⟩) hbatch
      exact ⟨⟨hsound, htables.trans hy.tables_eq⟩, rfl⟩
    | nested _ howner => exact ⟨hy, congrArg some howner⟩

/-- Only a COMMIT that succeeded ends as committed. -/
theorem commit_of_closing {c : Caller σ} {store store' : σ} {marked : Bool}
    {r : Except RunError Outcome} {cs : List Entry} (h : c.Closing store marked r store' cs)
    (hr : r = .ok .committed) : c.engine.batch "COMMIT" store = (.ok (), store') := by
  cases h with
  | committed hbatch => exact hbatch
  | commitFailed => cases hr
  | @rolledBack r _ _ =>
    cases r with
    | ok u => cases hr
    | error e => cases hr

/-- Closing a level with a commit leaves the tables as they were. -/
theorem gives_finish {y z : Migration σ} (hy : vn.Shows ts y.new.store)
    (h : (onNew m.new.finish).run y = (.ok .committed, z)) :
    z.old = y.old ∧ vn.Shows ts z.new.store := by
  have hc := m.new.finish_cases y.new
  cases hr : m.new.finish.run y.new with
  | mk r s =>
    rw [run_onNew hr] at h
    cases h
    refine ⟨rfl, ?_⟩
    rw [hr] at hc
    generalize hclosed : (Except.ok Outcome.committed : Except RunError Outcome) = r at hc
    cases hc with
    | notOpen => cases hclosed
    | notOwned => cases hclosed
    | nested => cases hclosed
    | ended _ _ _ hclosing =>
      obtain ⟨hsound, htables⟩ := vn.bracket hy.sound (Sql.read?_text (c := .commit) trivial)
        (.inl rfl) (commit_of_closing hclosing hclosed.symm)
      exact ⟨hsound, htables.trans hy.tables_eq⟩

/-- Marking a transaction leaves the tables as they were. -/
theorem gives_setSuccessful {y z : Migration σ} (hy : vn.Shows ts y.new.store)
    (h : (onNew m.new.setSuccessful).run y = (.ok (), z)) :
    z.old = y.old ∧ vn.Shows ts z.new.store := by
  have hc := m.new.setSuccessful_cases y.new
  cases hr : m.new.setSuccessful.run y.new with
  | mk r s =>
    rw [run_onNew hr] at h
    cases h
    refine ⟨rfl, ?_⟩
    rw [hr] at hc
    cases hc with
    | inside => exact hy
    | marked => exact hy

section Whole
variable {due : Table → Table → Prop} {done : Table → Table → Table → Prop}

/-- A migration that only looks: the tables of both databases. -/
structure Faces (vo : Tabular m.old.engine) (vn : Tabular m.new.engine) (us ts : List Table)
    (y : Migration σ) : Prop where
  old : vo.Shows us y.old.store
  new : vn.Shows ts y.new.store

section Looking
variable {α : Type} {q : α → Prop} {x : SessionM σ α}

theorem gives_lookOld
    (hx : ∀ owner, Gives (m.old.Finds vo us owner) x fun a s => q a ∧ m.old.Finds vo us owner s) :
    Gives (Faces vo vn us ts) (onOld x) fun a y => q a ∧ Faces vo vn us ts y := by
  intro y a z hy h
  cases hr : x.run y.old with
  | mk r s =>
    rw [run_onOld hr] at h
    cases h
    obtain ⟨hq, hfinds⟩ := hx _ ⟨hy.old, rfl⟩ hr
    exact ⟨hq, hfinds.tables, hy.new⟩

theorem gives_lookNew
    (hx : ∀ owner, Gives (m.new.Finds vn ts owner) x fun a s => q a ∧ m.new.Finds vn ts owner s) :
    Gives (Faces vo vn us ts) (onNew x) fun a y => q a ∧ Faces vo vn us ts y := by
  intro y a z hy h
  cases hr : x.run y.new with
  | mk r s =>
    rw [run_onNew hr] at h
    cases h
    obtain ⟨hq, hfinds⟩ := hx _ ⟨hy.new, rfl⟩ hr
    exact ⟨hq, hy.old, hfinds.tables⟩

end Looking

/-- What a migration has made of the tables, if it says that it committed. -/
def Committed (vo : Tabular m.old.engine) (vn : Tabular m.new.engine) (us ts : List Table)
    (due : Table → Table → Prop) (done : Table → Table → Table → Prop) (y : Migration σ) : Prop :=
  y.report.committed = true → ∃ f : Table → Table,
    (∀ t ∈ ts, Migrated due done us t (f t)) ∧ Faces vo vn us (ts.map f) y

theorem gives_copyAll (hby : ByName due done) (hcopy : CopiesOver m vo vn due done)
    (hus : (us.map Table.name).Nodup) (hts : (ts.map Table.name).Nodup) :
    Gives (Faces vo vn us ts)
      (m.copyAll ((visible us).map Table.snapshot) ((visible ts).map Table.snapshot))
      fun _ y => Committed vo vn us ts due done y := by
  intro y u z hy h hcommitted
  obtain ⟨⟨_, outcome⟩, y₄, hbracket, haccount⟩ := run_bind_eq_ok h
  cases haccount
  obtain rfl : outcome = .committed := of_decide_eq_true hcommitted
  obtain ⟨y₁, y₂, y₃, henter, hbody, hmark, hleave⟩ := run_bracket_eq_ok hbracket
  obtain ⟨hold₁, hfinds⟩ := gives_begin .exclusive hy.new henter
  have hstart : Reached vo vn us ts due done [] y₁ :=
    ⟨id, ⟨fun t _ => .kept fun u hu => (by cases hu), hold₁ ▸ hy.old, by simpa using hfinds⟩⟩
  have hdistinct : ((visible us).map Table.name).Nodup := (List.filter_sublist.map _).nodup hus
  obtain ⟨f, hf, hstands⟩ := gives_copyTables hby hcopy hts (fun u hu => List.mem_of_mem_filter hu)
    (fun u hu => by simpa using (List.mem_filter.1 hu).2) (by simpa [visible] using hdistinct)
    hstart hbody
  obtain ⟨hold₃, hshows₃⟩ := gives_setSuccessful hstands.new.tables hmark
  obtain ⟨hold₄, hshows₄⟩ := gives_finish hshows₃ hleave
  refine ⟨f, fun t ht => (hf t ht).of_visible hby, ?_, hshows₄⟩
  show vo.Shows us y₄.old.store
  rw [hold₄, hold₃]
  exact hstands.old

theorem gives_steps (hby : ByName due done) (hcopy : CopiesOver m vo vn due done)
    (hus : (us.map Table.name).Nodup) (hts : (ts.map Table.name).Nodup) :
    Gives (Faces vo vn us ts) m.steps fun _ y => Committed vo vn us ts due done y := by
  refine gives_bind (gives_lookOld fun _ => m.old.gives_userVersion vo) fun oldVersion => ?_
  refine gives_of_fact fun _ => ?_
  refine gives_bind (gives_lookNew fun _ => m.new.gives_userVersion vn) fun newVersion => ?_
  refine gives_of_fact fun _ => ?_
  have hstart : Gives (Faces vo vn us ts) (account fun _ => .start oldVersion newVersion)
      fun _ y => y.report.committed = false ∧ Faces vo vn us ts y := by
    intro y u z hy h
    cases h
    exact ⟨rfl, hy.old, hy.new⟩
  refine gives_bind hstart fun _ => ?_
  split
  · refine gives_of_pre And.right ?_
    refine gives_bind (gives_lookOld fun _ => m.old.gives_snapshotTables vo) fun oldTables => ?_
    refine gives_of_fact fun hold => ?_
    refine gives_bind (gives_lookNew fun _ => m.new.gives_snapshotTables vn) fun newTables => ?_
    refine gives_of_fact fun hnew => ?_
    subst hold hnew
    exact gives_copyAll hby hcopy hus hts
  · intro y u z hy h hcommitted
    cases h
    exact absurd (hy.1.symm.trans hcommitted) Bool.false_ne_true

/-- A migration that says that it has committed has gone through its steps. -/
theorem faces_of_committed (hby : ByName due done) (hcopy : CopiesOver m vo vn due done)
    (hus : (us.map Table.name).Nodup) (hts : (ts.map Table.name).Nodup)
    {old new old' new' : Session σ} {report : MigrationReport}
    (hfaces : Faces vo vn us ts ⟨old, new, .start 0 0⟩)
    (h : m.run.run (old, new) = (.ok report, old', new')) (hcommitted : report.committed = true) :
    ∃ f : Table → Table, (∀ t ∈ ts, Migrated due done us t (f t)) ∧
      Faces vo vn us (ts.map f) ⟨old', new', report⟩ := by
  rw [run_eq] at h
  cases hsteps : m.steps.run ⟨old, new, .start 0 0⟩ with
  | mk r z =>
    rw [hsteps] at h
    cases r with
    | error e => cases h
    | ok u =>
      cases h
      exact gives_steps hby hcopy hus hts hfaces hsteps hcommitted

/-- Whatever is due by a table of the old database to the one of its name is done when a
migration commits, and nothing else is. -/
theorem tables_of_committed (hby : ByName due done) (hcopy : CopiesOver m vo vn due done)
    {old new old' new' : Session σ} {report : MigrationReport} (hold : vo.sound old.store)
    (hnew : vn.sound new.store) (h : m.run.run (old, new) = (.ok report, old', new'))
    (hcommitted : report.committed = true) :
    vo.tables old'.store = vo.tables old.store ∧ ∃ f : Table → Table,
      vn.tables new'.store = (vn.tables new.store).map f ∧
      ∀ t ∈ vn.tables new.store, Migrated due done (vo.tables old.store) t (f t) := by
  obtain ⟨f, hf, hold', hnew'⟩ := faces_of_committed hby hcopy (vo.distinct hold)
    (vn.distinct hnew) ⟨⟨hold, rfl⟩, ⟨hnew, rfl⟩⟩ h hcommitted
  exact ⟨hold'.tables_eq, f, hnew'.tables_eq, hf⟩

end Whole

theorem exists_of_committed {result : Except RunError MigrationReport × Session σ × Session σ}
    (h : result.1.toOption.map MigrationReport.committed = some true) :
    ∃ report old' new', result = (.ok report, old', new') ∧ report.committed = true := by
  obtain ⟨e | report, old', new'⟩ := result
  · cases h
  · exact ⟨report, old', new', rfl, Option.some.inj h⟩

end SqlMaps.Migrator
