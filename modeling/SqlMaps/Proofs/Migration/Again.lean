import SqlMaps.Proofs.Engine.Versions
import SqlMaps.Proofs.Migration.EveryRow

/-! A migration without a policy copies nothing a second time.

A table is copied where it is due: it is empty, and the one of its name has rows and shares columns
with it. Whatever the engine makes of the rows, as long as each INSERT adds one, the table has rows
afterwards, and so no table is due any more (`not_due_of_migrated`). The versions are what they were,
so a second migration looks at both databases, finds nothing to do and commits that
(`run_again`). -/
namespace SqlMaps

namespace Relational

/-- The table with as many rows as another one. -/
def Grown (u t t' : Table) : Prop :=
  ∃ rows : List Row, t' = t.withRows rows ∧ rows.length = u.rows.length

theorem byName_grown : Migrator.ByName Due Grown where
  due h := ⟨h.name, h.visible⟩
  done := by
    rintro u t t' ⟨rows, rfl, -⟩
    rfl

end Relational

namespace Migrator
open Attempt Relational
variable {σ : Type} {m : Migrator σ} {vo : Tabular m.old.engine} {vn : Tabular m.new.engine}
  {us ts : List Table}

/-- Nothing is due to a table that has been migrated. -/
theorem not_due_of_migrated {t t' : Table} (hnames : (us.map Table.name).Nodup)
    (h : Migrated Due Grown us t t') : ∀ u ∈ us, ¬ Due u t' := by
  intro u hu hdue
  cases h with
  | @copied w _ _ hw hdue' hdone =>
    have hname : w.name = u.name :=
      hdue'.name.trans ((byName_grown.done hdone).symm.trans hdue.name.symm)
    obtain rfl := List.inj_on_of_nodup_map hnames hw hu hname
    obtain ⟨rows, rfl, hlength⟩ := hdone
    have hempty : rows = [] := hdue.empty
    rw [hempty] at hlength
    exact hdue.rows (List.eq_nil_of_length_eq_zero hlength.symm)
  | kept hnot => exact hnot u hu hdue

/-! ### The first migration -/

section Adding
variable (vo us)

/-- A row that is added is one more. -/
theorem gives_insertOne (hadds : vn.AddsOne) {t : Table} (ht : t ∈ ts) {columns : List String}
    {values : List Value} (hcolumns : columns ≠ []) (hvalues : values ≠ []) :
    Gives (Stands vo vn us ts) (m.write (.insert t.name columns values)) fun _ y =>
      ∃ rows : List Row, rows.length = t.rows.length + 1 ∧
        Stands vo vn us (replace (t.withRows rows) ts) y := by
  refine gives_writeRows t fun s n s' hs he => ?_
  obtain ⟨rows, hlength, hshows⟩ := hadds hs.sound (Sql.read?_insert hcolumns hvalues t.name) he
    (hs.tables_eq ▸ ht) rfl
  exact ⟨rows, hlength, hs.tables_eq ▸ hshows⟩

theorem gives_copyRows_length (hadds : vn.AddsOne) {t : Table} (ht : t ∈ ts)
    {columns : List String} (hcolumns : columns ≠ []) {rows : List (List Value)}
    (hrows : ∀ row ∈ rows, row.tail ≠ []) (before : List Row) :
    Gives (Stands vo vn us (replace (t.withRows before) ts)) (m.copyRows t.name columns rows)
      fun _ y => ∃ after : List Row, after.length = before.length + rows.length ∧
        Stands vo vn us (replace (t.withRows after) ts) y := by
  -- on the rows still to come, with whatever rows the table has by now
  induction rows generalizing before with
  | nil => exact (gives_pure _).post fun h => ⟨before, rfl, h.2⟩
  | cons row rows ih =>
    have hin : t.withRows before ∈ replace (t.withRows before) ts := mem_replace ht rfl
    have hwrite := gives_insertOne vo us hadds hin hcolumns (hrows row (List.mem_cons_self ..))
    refine gives_bind (gives_discard hwrite) fun _ => gives_of_exists fun next => ?_
    refine gives_of_fact fun hnext => ?_
    rw [Table.withRows_withRows, replace_withRows]
    refine gives_bind (gives_account _) fun _ => ?_
    refine (ih (fun r hr => hrows r (List.mem_cons_of_mem row hr)) next).post ?_
    rintro _ y ⟨after, hafter, hy⟩
    refine ⟨after, ?_, hy⟩
    rw [hafter, hnext, Table.withRows_rows, List.length_cons]
    omega

end Adding

/-- As many rows are added as are read of the old table. -/
theorem gives_placeAll_length (hpolicy : m.policy = none) (hadds : vn.AddsOne) {u t : Table}
    (ht : t ∈ ts) (hnames : (ts.map Table.name).Nodup) (hdue : Due u t) :
    Gives (Stands vo vn us ts) (m.placeAll u.name (sharedColumns u t) (copied u t)) fun _ y =>
      ∃ t', Grown u t t' ∧ Stands vo vn us (replace t' ts) y := by
  have hrows : ∀ row ∈ (copied u t).rows, row.tail ≠ [] := by simp [copied, hdue.shared]
  have hcopy := gives_copyRows_length vo us hadds ht hdue.shared hrows []
  have hsame : replace (t.withRows []) ts = ts := by
    rw [← hdue.empty]
    exact replace_self ht hnames
  rw [hsame, ← hdue.name] at hcopy
  rw [placeAll, hpolicy]
  refine hcopy.post ?_
  rintro _ y ⟨after, hlength, hy⟩
  exact ⟨_, ⟨after, rfl, by simpa [copied] using hlength⟩, hy⟩

theorem copiesOver_grown (hpolicy : m.policy = none) (hadds : vn.AddsOne) :
    CopiesOver m vo vn Due Grown :=
  copiesOver_of_placeAll (shouldCopy_iff_due hpolicy _) (fun h => h.toMatches)
    (fun _ ht hnames hdue => gives_placeAll_length hpolicy hadds ht hnames hdue)

/-- A level that is closed with a commit was the outermost one. -/
theorem idle_of_finish {y z : Migration σ}
    (h : (onNew m.new.finish).run y = (.ok .committed, z)) : z.new.transaction = none := by
  have hc := m.new.finish_cases y.new
  cases hr : m.new.finish.run y.new with
  | mk r s =>
    rw [run_onNew hr] at h
    cases h
    rw [hr] at hc
    generalize hclosed : (Except.ok Outcome.committed : Except RunError Outcome) = r at hc
    cases hc with
    | notOpen => cases hclosed
    | notOwned => cases hclosed
    | nested => cases hclosed
    | ended => rfl

section Versions
variable {wo : Versioned vo} {wn : Versioned vn} {oldVersion newVersion : Int64}

/-- What says that it committed has found a newer database, and leaves no transaction open. -/
theorem newer_of_committed {y z : Migration σ}
    (hy : Faces (wo.bearing oldVersion) (wn.bearing newVersion) us ts y)
    (h : m.steps.run y = (.ok (), z)) (hcommitted : z.report.committed = true) :
    oldVersion < newVersion ∧ z.new.transaction = none := by
  have hold := m.old.run_userVersion y.old
  have hnew := m.new.run_userVersion y.new
  rw [run_steps] at h
  cases hfound : m.old.foundVersion y.old with
  | error e =>
    rw [hfound] at h
    cases h
  | ok found =>
    cases hfound' : m.new.foundVersion y.new with
    | error e =>
      rw [hfound, hfound'] at h
      cases h
    | ok found' =>
      rw [hfound] at hold
      rw [hfound'] at hnew
      obtain ⟨rfl, -⟩ := m.old.gives_version wo _ ⟨hy.old, rfl⟩ hold
      obtain ⟨rfl, -⟩ := m.new.gives_version wn _ ⟨hy.new, rfl⟩ hnew
      rw [hfound, hfound'] at h
      dsimp only at h
      split at h
      · rename_i hnewer
        obtain ⟨_, _, -, hlooked⟩ := run_bind_eq_ok h
        obtain ⟨_, _, -, hcopied⟩ := run_bind_eq_ok hlooked
        obtain ⟨⟨_, outcome⟩, _, hbracket, haccount⟩ := run_bind_eq_ok hcopied
        cases haccount
        obtain rfl : outcome = .committed := of_decide_eq_true hcommitted
        obtain ⟨_, _, _, -, -, -, hleave⟩ := run_bracket_eq_ok hbracket
        have hidle := idle_of_finish hleave
        exact ⟨hnewer, hidle⟩
      · cases h
        cases hcommitted

end Versions

/-! ### The second migration -/

theorem run_copyInto_of_not_due (hpolicy : m.policy = none) {u : Table}
    (hvisible : isSystemTable u.name = false) (h : ∀ t ∈ ts, ¬ Due u t) (y : Migration σ) :
    (m.copyInto ((visible ts).map Table.snapshot) u.snapshot).run y = (.ok false, y) := by
  obtain ⟨hfind, -⟩ | ⟨t, ht, hname, hfind⟩ := find?_snapshot u hvisible ts
  · rw [copyInto_of_none hfind]
    rfl
  · rw [copyInto_of_some hfind]
    show (get >>= fun z => _ : MigrationM σ Bool).run y = _
    rw [run_bind, run_get]
    by_cases hshared : sharedColumns u t = []
    · rw [copyTable_of_none_shared hshared]
      dsimp only
      split <;> rfl
    · have hnot : ¬ m.shouldCopy y.report u.snapshot t.snapshot = true := fun hcopy =>
        h t ht ((shouldCopy_iff_due hpolicy _ hname hvisible hshared).1 hcopy)
      dsimp only
      rw [if_neg hnot]
      rfl

/-- Where no table is copied, each is entered as skipped. -/
theorem run_copyTables_of_skipped {newTables oldTables : List TableSnapshot}
    (h : ∀ old ∈ oldTables, ∀ y, (m.copyInto newTables old).run y = (.ok false, y))
    (y : Migration σ) :
    (m.copyTables newTables oldTables).run y = (.ok (), { y with report := { y.report with
      skippedTables := y.report.skippedTables ++ oldTables.map TableSnapshot.name } }) := by
  induction oldTables generalizing y with
  | nil => simp [copyTables]
  | cons old rest ih =>
    rw [copyTables, run_bind, h old (List.mem_cons_self ..)]
    dsimp only
    rw [if_neg Bool.false_ne_true, run_bind, account, run_modify]
    dsimp only
    rw [ih fun u hu => h u (List.mem_cons_of_mem old hu)]
    simp

/-- How many of the statements to both databases have failed. -/
def failures (y : Migration σ) : Nat :=
  y.old.failures + y.new.failures

/-- A migration that only looks and has an account: the new database is idle. -/
structure Rests (vo : Tabular m.old.engine) (vn : Tabular m.new.engine) (us ts : List Table)
    (r : MigrationReport) (y : Migration σ) : Prop extends Faces vo vn us ts y where
  idle : y.new.transaction = none
  report : y.report = r

section Looking
variable {α : Type} {q : α → Prop} {x : SessionM σ α} {r : MigrationReport}

theorem yields_lookOld
    (hx : ∀ owner, Yields Session.failures (m.old.Finds vo us owner) x fun a s =>
      q a ∧ m.old.Finds vo us owner s) :
    Yields failures (Rests vo vn us ts r) (onOld x) fun a y => q a ∧ Rests vo vn us ts r y := by
  intro y hy
  obtain ⟨a, s, hrun, ⟨hq, hfinds⟩, hle⟩ | ⟨e, s, hrun, hlt⟩ := hx _ ⟨hy.old, rfl⟩
  · exact .inl ⟨a, _, run_onOld hrun, ⟨hq, ⟨hfinds.tables, hy.new⟩, hy.idle, hy.report⟩,
      Nat.add_le_add_right hle _⟩
  · exact .inr ⟨e, _, run_onOld hrun, Nat.add_lt_add_right hlt _⟩

theorem yields_lookNew
    (hx : ∀ owner, Yields Session.failures (m.new.Finds vn ts owner) x fun a s =>
      q a ∧ m.new.Finds vn ts owner s) :
    Yields failures (Rests vo vn us ts r) (onNew x) fun a y => q a ∧ Rests vo vn us ts r y := by
  intro y hy
  have howner := Session.owner?_of_none hy.idle
  obtain ⟨a, s, hrun, ⟨hq, hfinds⟩, hle⟩ | ⟨e, s, hrun, hlt⟩ := hx _ ⟨hy.new, rfl⟩
  · have hidle : s.transaction = none := Option.map_eq_none_iff.1 (hfinds.owner.trans howner)
    exact .inl ⟨a, _, run_onNew hrun, ⟨hq, ⟨hy.old, hfinds.tables⟩, hidle, hy.report⟩,
      Nat.add_le_add_left hle _⟩
  · exact .inr ⟨e, _, run_onNew hrun, Nat.add_lt_add_left hlt _⟩

end Looking

/-- The account of a migration that has copied no table. -/
def skippedAll (r : MigrationReport) (us : List Table) : MigrationReport :=
  { r with
    status := .migrated
    skippedTables := r.skippedTables ++ (visible us).map Table.name
    committed := true }

/-- Where nothing is due, an empty transaction is committed. -/
theorem yields_copyAll (hpolicy : m.policy = none) (h : ∀ u ∈ us, ∀ t ∈ ts, ¬ Due u t)
    (r : MigrationReport) :
    Yields failures (Rests vo vn us ts r)
      (m.copyAll ((visible us).map Table.snapshot) ((visible ts).map Table.snapshot))
      fun _ y => Faces vo vn us ts y ∧ y.report = skippedAll r us := by
  intro y hy
  have hskipped : ∀ old ∈ (visible us).map Table.snapshot, ∀ y : Migration σ,
      (m.copyInto ((visible ts).map Table.snapshot) old).run y = (.ok false, y) := by
    intro old hold
    obtain ⟨u, hu, rfl⟩ := List.mem_map.1 hold
    obtain ⟨hu, hvisible⟩ := List.mem_filter.1 hu
    exact run_copyInto_of_not_due hpolicy (by simpa using hvisible) (h u hu)
  rw [copyAll, run_bind]
  obtain ⟨e, store, -, hbegin⟩ | ⟨store, hbatch, hbegin⟩ :=
    m.new.run_begin_of_idle .exclusive hy.idle
  · -- the BEGIN has failed
    rw [run_bracket_of_error (run_onNew hbegin)]
    refine .inr ⟨e, _, rfl, Nat.add_lt_add_left ?_ _⟩
    exact (y.new.failures_sent store _).symm ▸ Nat.lt_succ_self _
  · obtain ⟨hsound, htables⟩ := vn.bracket hy.new.sound
      (Sql.read?_text (c := .begin .exclusive) trivial) (.inr ⟨.exclusive, rfl⟩) hbatch
    have hbody := run_copyTables_of_skipped hskipped
      { y with new := m.new.begun .exclusive y.new store }
    have hinside := m.run_inside hbody rfl
    obtain ⟨o, store', cs, hfinish, hclosing⟩ := m.new.run_finish_of_outermost
      (s := { m.new.begun .exclusive y.new store with
        transaction := some ⟨m.new.thread, 0, true⟩ }) rfl rfl rfl
    have hlog : (Session.mk store' none ((m.new.begun .exclusive y.new store).log ++ cs)).failures =
        y.new.failures + cs.countP fun e => !e.succeeded := by
      rw [Session.failures_of_log (s := m.new.begun .exclusive y.new store) rfl]
      exact congrArg (· + _) (y.new.failures_sent store _)
    rw [run_bracket_of_ok (run_onNew hbegin) hinside (run_onNew hfinish)]
    cases hclosing with
    | committed hcommit =>
      obtain ⟨hsound', htables'⟩ := vn.bracket hsound (Sql.read?_text (c := .commit) trivial)
        (.inl rfl) hcommit
      refine .inl ⟨(), _, rfl, ⟨⟨hy.old, hsound', ?_⟩, ?_⟩, Nat.add_le_add_left ?_ _⟩
      · exact htables'.trans (htables.trans hy.new.tables_eq)
      · obtain rfl := hy.report
        simp [skippedAll, Function.comp_def, Table.snapshot]
      · exact Nat.le_of_eq hlog.symm
    | @commitFailed e r' =>
      have hfailed : 0 < [m.new.entry .batch "COMMIT" (.error e : Except RunError Unit),
          m.new.entry .batch "ROLLBACK" r'].countP fun e => !e.succeeded :=
        List.countP_pos_iff.2 ⟨_, List.mem_cons_self .., rfl⟩
      refine .inr ⟨_, _, rfl, Nat.add_lt_add_left ?_ _⟩
      exact Nat.lt_of_lt_of_eq (Nat.lt_add_of_pos_right hfailed) hlog.symm

/-- A migration into a newer database to which nothing is due. -/
theorem yields_steps (hpolicy : m.policy = none) (wo : Versioned vo) (wn : Versioned vn)
    {oldVersion newVersion : Int64} (hnewer : oldVersion < newVersion)
    (h : ∀ u ∈ us, ∀ t ∈ ts, ¬ Due u t) (r : MigrationReport) :
    Yields failures (Rests (wo.bearing oldVersion) (wn.bearing newVersion) us ts r) m.steps
      fun _ y => Faces (wo.bearing oldVersion) (wn.bearing newVersion) us ts y ∧
        y.report = skippedAll (.start oldVersion newVersion) us := by
  refine yields_bind (yields_lookOld fun _ => m.old.yields_userVersion wo oldVersion) fun found => ?_
  refine yields_of_fact fun hfound => ?_
  refine yields_bind (yields_lookNew fun _ => m.new.yields_userVersion wn newVersion) fun found' => ?_
  refine yields_of_fact fun hfound' => ?_
  subst hfound hfound'
  have hstart : Yields failures (Rests (wo.bearing found) (wn.bearing found') us ts r)
      (account fun _ => .start found found') fun _ y =>
        Rests (wo.bearing found) (wn.bearing found') us ts (.start found found') y :=
    fun y hy => .inl ⟨(), _, rfl, ⟨⟨hy.old, hy.new⟩, hy.idle, rfl⟩, Nat.le_refl _⟩
  refine yields_bind hstart fun _ => ?_
  rw [if_pos hnewer]
  refine yields_bind (yields_lookOld fun _ => m.old.yields_snapshotTables _) fun oldTables => ?_
  refine yields_of_fact fun hold => ?_
  refine yields_bind (yields_lookNew fun _ => m.new.yields_snapshotTables _) fun newTables => ?_
  refine yields_of_fact fun hnew => ?_
  subst hold hnew
  exact yields_copyAll hpolicy h _

/-- If a migration without a policy commits, a second one, of which no statement fails, succeeds:
it copies no table and counts no row, and the tables of both databases are as the first one has
left them. -/
theorem run_again {m : Migrator σ} {vo : Tabular m.old.engine} {vn : Tabular m.new.engine}
    (wo : Versioned vo) (wn : Versioned vn) (hadds : vn.AddsOne) (hpolicy : m.policy = none)
    {old new old' new' old'' new'' : Session σ} {report : MigrationReport}
    {result : Except RunError MigrationReport} (hold : vo.sound old.store)
    (hnew : vn.sound new.store) (hfirst : m.run.run (old, new) = (.ok report, old', new'))
    (hcommitted : report.committed = true)
    (hsecond : m.run.run (old', new') = (result, old'', new'')) (hold' : old'.Unfailing old'')
    (hnew' : new'.Unfailing new'') :
    (∃ report', result = .ok report' ∧ report'.tables = 0 ∧ report'.inserted = 0 ∧
      report'.updated = 0 ∧ report'.skipped = 0) ∧
      vo.tables old''.store = vo.tables old'.store ∧ vn.tables new''.store = vn.tables new'.store := by
  have hus := vo.distinct hold
  have hts := vn.distinct hnew
  let vo' := wo.bearing (wo.version old.store)
  let vn' := wn.bearing (wn.version new.store)
  have hfaces : Faces vo' vn' (vo.tables old.store) (vn.tables new.store)
      ⟨old, new, .start 0 0⟩ := ⟨⟨⟨hold, rfl⟩, rfl⟩, ⟨⟨hnew, rfl⟩, rfl⟩⟩
  obtain ⟨f, hf, hleft⟩ := faces_of_committed byName_grown
    (copiesOver_grown hpolicy (wn.addsOne_bearing _ hadds)) hus hts hfaces hfirst hcommitted
  have hdue : ∀ u ∈ vo.tables old.store, ∀ t ∈ (vn.tables new.store).map f, ¬ Due u t := by
    intro u hu t' ht'
    obtain ⟨t, ht, rfl⟩ := List.mem_map.1 ht'
    exact not_due_of_migrated hus (hf t ht) u hu
  obtain ⟨hnewer, hidle⟩ : wo.version old.store < wn.version new.store ∧
      new'.transaction = none := by
    rw [run_eq] at hfirst
    cases hsteps : m.steps.run ⟨old, new, .start 0 0⟩ with
    | mk r z =>
      rw [hsteps] at hfirst
      cases r with
      | error e => cases hfirst
      | ok u =>
        cases hfirst
        exact newer_of_committed hfaces hsteps hcommitted
  have hyields := yields_steps hpolicy wo wn hnewer hdue (.start 0 0)
  rw [run_eq] at hsecond
  cases hsteps : m.steps.run ⟨old', new', .start 0 0⟩ with
  | mk r z =>
    rw [hsteps] at hsecond
    cases hsecond
    have hcount : failures z = failures ⟨old', new', .start 0 0⟩ := by
      rw [failures, hold'.failures_eq, hnew'.failures_eq]
      rfl
    have hrests : Rests vo' vn' (vo.tables old.store) ((vn.tables new.store).map f)
        (.start 0 0) ⟨old', new', .start 0 0⟩ := ⟨⟨hleft.old, hleft.new⟩, hidle, rfl⟩
    obtain ⟨_, rfl, hfaces', hreport⟩ := hyields.run_eq hrests hsteps hcount
    refine ⟨⟨z.report, rfl, ?_⟩, ?_, ?_⟩
    · rw [hreport]
      exact ⟨rfl, rfl, rfl, rfl⟩
    · exact hfaces'.old.tables_eq.trans hleft.old.tables_eq.symm
    · exact hfaces'.new.tables_eq.trans hleft.new.tables_eq.symm

/-- A migration between databases of visits, without a policy. -/
def migrateVisits (sessions : Session Store.Connection × Session Store.Connection) :
    Except RunError MigrationReport × Session Store.Connection × Session Store.Connection :=
  let caller : Caller Store.Connection := ⟨Store.boundedEngine, .immediate, "main"⟩
  (Migrator.mk caller caller none).run.run sessions

theorem run_again_addedColumn : ∃ report old' new' report' old'' new'',
    addedColumn = (.ok report, old', new') ∧ report.inserted = 2 ∧
      migrateVisits (old', new') = (.ok report', old'', new'') ∧ report'.inserted = 0 ∧
      report'.tables = 0 ∧ Store.tablesOf new''.store = Store.tablesOf new'.store := by
  obtain ⟨hok, hinserted, hold, hold', hnew, hnew'⟩ :
      addedColumn.1.toOption.map MigrationReport.committed = some true ∧
        addedColumn.1.toOption.map MigrationReport.inserted = some 2 ∧
        let again := migrateVisits addedColumn.2
        let es := again.2.1.log.drop addedColumn.2.1.log.length
        let es' := again.2.2.log.drop addedColumn.2.2.log.length
        again.2.1.log = addedColumn.2.1.log ++ es ∧ (∀ e ∈ es, e.succeeded = true) ∧
          again.2.2.log = addedColumn.2.2.log ++ es' ∧ ∀ e ∈ es', e.succeeded = true := by
    decide +kernel
  have holdLog : addedColumn.2.1.Unfailing (migrateVisits addedColumn.2).2.1 := ⟨_, hold, hold'⟩
  have hnewLog : addedColumn.2.2.Unfailing (migrateVisits addedColumn.2).2.2 := ⟨_, hnew, hnew'⟩
  obtain ⟨report, old', new', hfirst, hcommitted⟩ := exists_of_committed hok
  rw [hfirst] at hinserted holdLog hnewLog
  cases hsecond : migrateVisits (old', new') with
  | mk result sessions =>
    rw [hsecond] at holdLog hnewLog
    obtain ⟨⟨report', rfl, htables, hnone, -, -⟩, -, hsame⟩ :=
      run_again Store.versioned Store.versioned Store.appends.addsOne rfl
        (Store.sound_ofDatabase uncounted_plain _) (Store.sound_ofDatabase counted_plain _)
        hfirst hcommitted hsecond holdLog hnewLog
    exact ⟨report, old', new', report', _, _, hfirst, Option.some.inj hinserted, hsecond, hnone,
      htables, hsame⟩

end Migrator

end SqlMaps
