import SqlMaps.Proofs.Migration.Placing

/-! A migration with a policy keeps the rows apart that it copies.

A table of the old database is copied to the one of its name or left out, and a copy is not touched by
those of other names (`Copied.append`). So what a copy has made of the rows of its table is what the
new database holds in the end, and what the account counts is what has become of all rows
(`run_keepsRowsApart`). The one way in which a row is lost is that a later one, which is to be
updated, has the id that the row was added under (`run_losesAddedRow`). -/
namespace SqlMaps.Migrator
open Attempt Relational
variable {σ : Type} {m : Migrator σ} {vo : Tabular m.old.engine} {vn : Tabular m.new.engine}
  {us ts : List Table} {v v' : Int64} {past : List Placed} {policy : RetentionPolicy}

/-- A copy that a migration has made, from a table of the one database to a table of the other. -/
structure Made (policy : RetentionPolicy) (v v' : Int64) (us ts ts' : List Table) (c : Copy) :
    Prop where
  policy : c.policy = policy
  oldVersion : c.oldVersion = v
  newVersion : c.newVersion = v'
  name : c.old.name = c.new.name
  old : c.old ∈ us
  new : c.new ∈ ts
  after : c.after ∈ ts'
  /-- Every row was put somewhere or left out. -/
  placed : c.placed.map Placed.row = c.old.rows

/-- Some tables of the old database have been copied, or left out, and the new tables of other names
are as they were. -/
structure Copied (policy : RetentionPolicy) (v v' : Int64) (us ts₀ ts some : List Table)
    (copies : List Copy) (ts' : List Table) : Prop where
  old : (copies.map fun c => c.old).Sublist some
  made : ∀ c ∈ copies, Made policy v v' us ts₀ ts' c
  names : ts'.map Table.name = ts.map Table.name
  kept : ∀ t ∈ ts, t.name ∉ some.map Table.name → t ∈ ts'

section Copied
variable {ts₀ ts₁ ts' some others : List Table} {copies copies' : List Copy}

theorem copied_nil : Copied policy v v' us ts₀ ts some [] ts :=
  ⟨List.nil_sublist some, by simp, rfl, fun _ ht _ => ht⟩

/-- Tables of other names leave a copy alone. -/
theorem Copied.append (h : Copied policy v v' us ts₀ ts some copies ts₁)
    (h' : Copied policy v v' us ts₀ ts₁ others copies' ts')
    (hapart : ∀ u ∈ some, u.name ∉ others.map Table.name) :
    Copied policy v v' us ts₀ ts (some ++ others) (copies ++ copies') ts' where
  old := by
    rw [List.map_append]
    exact h.old.append h'.old
  made := by
    refine List.forall_mem_append.2 ⟨fun c hc => ?_, h'.made⟩
    have hmade := h.made c hc
    have hfrom : c.old ∈ some := h.old.subset (List.mem_map_of_mem hc)
    have hname : c.after.name = c.old.name := hmade.name.symm
    exact { hmade with after := h'.kept _ hmade.after (hname ▸ hapart _ hfrom) }
  names := h'.names.trans h.names
  kept t ht hnot := by
    rw [List.map_append, List.mem_append, not_or] at hnot
    exact h'.kept t (h.kept t ht hnot.1) hnot.2

end Copied

section Tables
variable (hoverwrites : vn.Overwrites) (hnumbers : vn.Numbers)
variable (hpolicy : m.policy = some policy) {ts₀ : List Table} (halias : ∀ t ∈ ts₀, t.NoAlias)
include hoverwrites hnumbers hpolicy halias

/-- One table of the old database is copied to the one of its name, or left out. -/
theorem gives_copyInto_made {u : Table} (hu : u ∈ us) (hvisible : isSystemTable u.name = false)
    (hpending : ∀ t ∈ ts₀, t.name = u.name → t ∈ ts) (hnames : (ts.map Table.name).Nodup) :
    Gives (Tells vo vn us ts v v' past)
      (m.copyInto ((visible ts₀).map Table.snapshot) u.snapshot)
      fun _ y => ∃ copies ts', Copied policy v v' us ts₀ ts [u] copies ts' ∧
        Tells vo vn us ts' v v' (past ++ copies.flatMap Copy.placed) y := by
  have hnone : Gives (Tells vo vn us ts v v' past) (pure false) fun _ y =>
      ∃ copies ts', Copied policy v v' us ts₀ ts [u] copies ts' ∧
        Tells vo vn us ts' v v' (past ++ copies.flatMap Copy.placed) y :=
    (gives_pure false).post fun h => ⟨[], ts, copied_nil, by simpa using h.2⟩
  rcases find?_snapshot u hvisible ts₀ with ⟨hfind, -⟩ | ⟨t, ht, hname, hfind⟩
  · rwa [copyInto_of_none hfind]
  · rw [copyInto_of_some hfind]
    refine gives_get_bind fun y₀ _ _ => ?_
    split
    · by_cases hshared : sharedColumns u t = []
      · rwa [copyTable_of_none_shared hshared]
      · have hin := hpending t ht hname.symm
        have hsubset : sharedColumns u t ⊆ u.columnNames := fun c hc => List.mem_of_mem_filter hc
        rw [copyTable_of_shared hshared]
        refine gives_bind (gives_told (gives_queryOld (Sql.read?_copyRows hshared u.name) rfl)
          fun _ => rfl) fun rows => gives_of_pre and_assoc.1 (gives_of_fact fun hrows => ?_)
        obtain rfl := hrows u hu rfl hsubset
        have htells : ∀ {y : Migration σ}, Stands vo vn us ts y ∧ Counts v v' past y.report →
            Tells vo vn us ts v v' past y := fun hy => ⟨hy.1, hy.2⟩
        refine gives_of_pre htells ?_
        refine gives_bind (gives_placeAll_puts hoverwrites hnumbers (c := ⟨policy, v, v', u, t⟩)
          hpolicy hu hin hname (halias t ht) hnames) fun _ => (gives_pure _).post ?_
        rintro _ y ⟨-, placed, rows, hrows, hputs, hy⟩
        refine ⟨[⟨⟨policy, v, v', u, t⟩, placed, rows, hputs⟩], replace (t.withRows rows) ts,
          ⟨List.Sublist.refl _, ?_, map_name_replace .., fun t' ht' hne => ?_⟩, by simpa using hy⟩
        · rintro c hc
          obtain rfl := List.mem_singleton.1 hc
          exact ⟨rfl, rfl, rfl, hname, hu, ht, mem_replace hin rfl, hrows⟩
        · refine (mem_replace_iff_of_ne fun he => hne ?_).2 ht'
          rw [he, Table.withRows_name, ← hname]
          exact List.mem_singleton_self _
    · exact hnone

/-- The tables of the old database are copied one after another. -/
theorem gives_copyTables_made {rest : List Table} (hrest : rest ⊆ us)
    (hvisible : ∀ u ∈ rest, isSystemTable u.name = false) (hdistinct : (rest.map Table.name).Nodup)
    (hpending : ∀ t ∈ ts₀, t.name ∈ rest.map Table.name → t ∈ ts)
    (hnames : (ts.map Table.name).Nodup) :
    Gives (Tells vo vn us ts v v' past)
      (m.copyTables ((visible ts₀).map Table.snapshot) (rest.map Table.snapshot))
      fun _ y => ∃ copies ts', Copied policy v v' us ts₀ ts rest copies ts' ∧
        Tells vo vn us ts' v v' (past ++ copies.flatMap Copy.placed) y := by
  -- on the tables still to come, whose new tables have not been touched
  induction rest generalizing ts past with
  | nil => exact (gives_pure _).post fun h => ⟨[], ts, copied_nil, by simpa using h.2⟩
  | cons u rest ih =>
    obtain ⟨hu, hrest⟩ := List.cons_subset.1 hrest
    obtain ⟨hsystem, hvisible⟩ := List.forall_mem_cons.1 hvisible
    rw [List.map_cons, List.nodup_cons] at hdistinct
    refine gives_bind (gives_copyInto_made hoverwrites hnumbers hpolicy halias hu hsystem
      (fun t ht hname => hpending t ht (hname ▸ List.mem_cons_self ..)) hnames) fun wasCopied => ?_
    refine gives_of_exists fun copies => gives_of_exists fun ts₁ => gives_of_fact fun hone => ?_
    have hpending₁ : ∀ t ∈ ts₀, t.name ∈ rest.map Table.name → t ∈ ts₁ := fun t ht hname => by
      refine hone.kept t (hpending t ht (List.mem_cons_of_mem _ hname)) fun hmem => hdistinct.1 ?_
      exact List.mem_singleton.1 hmem ▸ hname
    have hmore : Gives (Tells vo vn us ts₁ v v' (past ++ copies.flatMap Copy.placed))
        (m.copyTables ((visible ts₀).map Table.snapshot) (rest.map Table.snapshot))
        fun _ y => ∃ copies ts', Copied policy v v' us ts₀ ts (u :: rest) copies ts' ∧
          Tells vo vn us ts' v v' (past ++ copies.flatMap Copy.placed) y := by
      refine (ih hrest hvisible hdistinct.2 hpending₁ (hone.names ▸ hnames)).post ?_
      rintro _ y ⟨copies', ts', hothers, hy⟩
      refine ⟨copies ++ copies', ts', hone.append hothers ?_, ?_⟩
      · exact List.forall_mem_singleton.2 hdistinct.1
      · rwa [List.flatMap_append, ← List.append_assoc]
    cases wasCopied with
    | true =>
      exact gives_bind (gives_recounted fun _ h => ⟨h.oldVersion, h.newVersion, h.inserted, h.updated,
        h.skipped⟩) fun _ => hmore
    | false =>
      exact gives_bind (gives_recounted fun _ h => ⟨h.oldVersion, h.newVersion, h.inserted, h.updated,
        h.skipped⟩) fun _ => hmore

/-! ### A whole migration -/

/-- The copies that a migration has made, if it says that it has committed. -/
def Settled (vo : Tabular m.old.engine) (vn : Tabular m.new.engine) (us ts : List Table)
    (policy : RetentionPolicy) (y : Migration σ) : Prop :=
  y.report.committed = true → ∃ copies ts',
    Copied policy y.report.oldVersion y.report.newVersion us ts ts (visible us) copies ts' ∧
    Counts y.report.oldVersion y.report.newVersion (copies.flatMap Copy.placed) y.report ∧
    Faces vo vn us ts' y

theorem gives_copyAll_made (hus : (us.map Table.name).Nodup) (hnames : (ts₀.map Table.name).Nodup) :
    Gives (fun y => Faces vo vn us ts₀ y ∧ Counts v v' [] y.report)
      (m.copyAll ((visible us).map Table.snapshot) ((visible ts₀).map Table.snapshot))
      fun _ y => Settled vo vn us ts₀ policy y := by
  rintro y u z ⟨hy, hcounts⟩ h hcommitted
  obtain ⟨⟨_, outcome⟩, y₄, hbracket, haccount⟩ := run_bind_eq_ok h
  cases haccount
  obtain rfl : outcome = .committed := of_decide_eq_true hcommitted
  obtain ⟨y₁, y₂, y₃, henter, hbody, hmark, hleave⟩ := run_bracket_eq_ok hbracket
  obtain ⟨hold₁, hfinds⟩ := gives_begin .exclusive hy.new henter
  have hreport₁ : y₁.report = y.report := (congrArg (·.2.report) henter).symm
  have hdistinct : ((visible us).map Table.name).Nodup := (List.filter_sublist.map _).nodup hus
  obtain ⟨copies, ts', hcopied, htells⟩ := gives_copyTables_made hoverwrites hnumbers hpolicy halias
    (fun u hu => List.mem_of_mem_filter hu) (fun u hu => by simpa using (List.mem_filter.1 hu).2)
    hdistinct (fun t ht _ => ht) hnames
    (⟨⟨hold₁ ▸ hy.old, hfinds⟩, hreport₁ ▸ hcounts⟩ : Tells vo vn us ts₀ v v' [] y₁) hbody
  obtain ⟨hold₃, hshows₃⟩ := gives_setSuccessful htells.new.tables hmark
  obtain ⟨hold₄, hshows₄⟩ := gives_finish hshows₃ hleave
  have hreport₄ : y₄.report = y₂.report :=
    (congrArg (·.2.report) hleave).symm.trans (congrArg (·.2.report) hmark).symm
  obtain ⟨hversion, hversion', hinserted, hupdated, hskipped⟩ := hreport₄ ▸ htells.counts
  subst hversion hversion'
  refine ⟨copies, ts', hcopied, ⟨rfl, rfl, hinserted, hupdated, hskipped⟩, ?_, hshows₄⟩
  show vo.Shows us y₄.old.store
  rw [hold₄, hold₃]
  exact htells.old

theorem gives_steps_made (hus : (us.map Table.name).Nodup) (hnames : (ts₀.map Table.name).Nodup) :
    Gives (Faces vo vn us ts₀) m.steps fun _ y => Settled vo vn us ts₀ policy y := by
  refine gives_bind (gives_lookOld fun _ => m.old.gives_userVersion vo) fun oldVersion => ?_
  refine gives_of_fact fun _ => ?_
  refine gives_bind (gives_lookNew fun _ => m.new.gives_userVersion vn) fun newVersion => ?_
  refine gives_of_fact fun _ => ?_
  have hstart : Gives (Faces vo vn us ts₀) (account fun _ => .start oldVersion newVersion)
      fun _ y => y.report.committed = false ∧ Faces vo vn us ts₀ y ∧
        Counts oldVersion newVersion [] y.report := by
    intro y u z hy h
    cases h
    exact ⟨rfl, ⟨hy.old, hy.new⟩, rfl, rfl, rfl, rfl, rfl⟩
  refine gives_bind hstart fun _ => ?_
  split
  · refine gives_of_pre And.right ?_
    refine gives_bind (gives_beside (gives_lookOld fun _ => m.old.gives_snapshotTables vo)
      fun _ => rfl) fun oldTables => gives_of_pre and_assoc.1 (gives_of_fact fun hold => ?_)
    refine gives_bind (gives_beside (gives_lookNew fun _ => m.new.gives_snapshotTables vn)
      fun _ => rfl) fun newTables => gives_of_pre and_assoc.1 (gives_of_fact fun hnew => ?_)
    subst hold hnew
    exact gives_copyAll_made hoverwrites hnumbers hpolicy halias hus hnames
  · intro y u z hy h hcommitted
    cases h
    exact absurd (hy.1.symm.trans hcommitted) Bool.false_ne_true

end Tables

/-- A migration with a policy that commits, between tables of which the new ones have no column that
is the row id: each row that the account counts as added or updated stands in a row of its own in a
table of the new database, which holds the values that were written for it. The exception is a row
that was added under the id of a later one which is to be updated, and which is written over it. -/
theorem run_keepsRowsApart {m : Migrator σ} (vo : Tabular m.old.engine) (vn : Tabular m.new.engine)
    (hidentifies : vo.Identifies) (hoverwrites : vn.Overwrites) (hnumbers : vn.Numbers)
    (hpolicy : m.policy = some policy) {old new old' new' : Session σ} {report : MigrationReport}
    (hold : vo.sound old.store) (hnew : vn.sound new.store)
    (halias : ∀ t ∈ vn.tables new.store, t.NoAlias)
    (hrun : m.run.run (old, new) = (.ok report, old', new'))
    (hcommitted : report.committed = true) :
    ∃ copies : List Copy,
      Counts report.oldVersion report.newVersion (copies.flatMap Copy.placed) report ∧
      (copies.map fun c => c.new.name).Nodup ∧
      ∀ c ∈ copies, Made policy report.oldVersion report.newVersion (vo.tables old.store)
        (vn.tables new.store) (vn.tables new'.store) c ∧ c.KeepsApart := by
  rw [run_eq] at hrun
  cases hsteps : m.steps.run ⟨old, new, .start 0 0⟩ with
  | mk r z =>
    rw [hsteps] at hrun
    cases r with
    | error e => cases hrun
    | ok u =>
      cases hrun
      have hfaces : Faces vo vn (vo.tables old.store) (vn.tables new.store)
          ⟨old, new, .start 0 0⟩ := ⟨⟨hold, rfl⟩, ⟨hnew, rfl⟩⟩
      obtain ⟨copies, ts', hcopied, hcounts, hfaces'⟩ := gives_steps_made hoverwrites hnumbers hpolicy
        halias (vo.distinct hold) (vn.distinct hnew) hfaces hsteps hcommitted
      refine ⟨copies, hcounts, ?_, fun c hc => ?_⟩
      · have hnames : (copies.map fun c => c.new.name) =
            (copies.map fun c => c.old).map Table.name := by
          rw [List.map_map]
          exact List.map_congr_left fun c hc => (hcopied.made c hc).name.symm
        rw [hnames]
        exact ((hcopied.old.trans List.filter_sublist).map _).nodup (vo.distinct hold)
      · have hmade := hcopied.made c hc
        have hids : (c.placed.map (·.row.id)).Nodup := by
          have hrows := hidentifies hold c.old hmade.old
          rwa [← hmade.placed, List.map_map] at hrows
        rw [hfaces'.new.tables_eq]
        exact ⟨hmade, c.keepsApart hids⟩

/-- A policy by which ann is added, and everyone else is written over a row. -/
def annAdded : RetentionPolicy :=
  { RetentionPolicy.permissive with
    disposition := fun _ row _ _ =>
      if row.text? (.named "name") = some "ann" then .insert else .update }

/-- A table with one name, under id 10. -/
def tenthName : Store.Table := names [⟨10, [.text "seed"]⟩]

theorem noAlias_tenthName : ∀ t ∈ [tenthName.shown], t.NoAlias := by
  intro t ht c hc
  obtain rfl := List.mem_singleton.1 ht
  cases List.mem_singleton.1 hc
  rfl

/-- The migration of two names, of which ann is added, into the table. -/
def appendedNames (ann bob : Int64) : Except RunError MigrationReport × Session Store.Connection ×
    Session Store.Connection :=
  let caller : Caller Store.Connection := ⟨Store.boundedEngine, .immediate, "main"⟩
  (Migrator.mk caller caller (some annAdded)).run.run
    (.start (.ofDatabase ⟨1, [names [⟨ann, [.text "ann"]⟩, ⟨bob, [.text "bob"]⟩]]⟩ true),
      .start (.ofDatabase ⟨2, [tenthName]⟩ false))

/-- Ann is added under id 11, and bob is written over the row that was there. -/
theorem run_keepsRowsApart_names : ∃ report old' new',
    appendedNames 5 10 = (.ok report, old', new') ∧ report.committed = true ∧
      (report.inserted, report.updated, report.skipped) = (1, 1, 0) ∧
      ∃ copies : List Copy,
        Counts report.oldVersion report.newVersion (copies.flatMap Copy.placed) report ∧
        ∀ c ∈ copies, c.after ∈ Store.tablesOf new'.store ∧ c.KeepsApart := by
  have hreport : (appendedNames 5 10).1 = .ok ⟨.migrated, 1, 2, 1, [], 1, 1, 0, true⟩ := by
    decide +kernel
  cases hrun : appendedNames 5 10 with
  | mk result left =>
    obtain ⟨old', new'⟩ := left
    rw [hrun] at hreport
    cases hreport
    obtain ⟨copies, hcounts, -, hcopies⟩ := run_keepsRowsApart Store.tabular Store.tabular
      Store.identifies Store.overwrites Store.numbers rfl
      (Store.sound_ofDatabase (by constructor <;> decide) _)
      (Store.sound_ofDatabase (by constructor <;> decide) _)
      noAlias_tenthName hrun rfl
    exact ⟨_, old', new', rfl, rfl, rfl, copies, hcounts, fun c hc =>
      ⟨(hcopies c hc).1.after, (hcopies c hc).2⟩⟩

/-- Bob has the id that ann is added under, and is written over her: both rows are counted, and no row
holds her name. -/
theorem run_losesAddedRow : ∃ report old' new',
    appendedNames 5 11 = (.ok report, old', new') ∧ report.committed = true ∧
      (report.inserted, report.updated, report.skipped) = (1, 1, 0) ∧
      ∀ t ∈ Store.tablesOf new'.store, ∀ row ∈ t.rows, t.valueOf row "name" ≠ .text "ann" := by
  obtain ⟨hreport, hstore⟩ :
      (appendedNames 5 11).1 = .ok ⟨.migrated, 1, 2, 1, [], 1, 1, 0, true⟩ ∧
        (appendedNames 5 11).2.2.store.current =
          some ⟨2, [names [⟨10, [.text "seed"]⟩, ⟨11, [.text "bob"]⟩]]⟩ := by
    decide +kernel
  cases hrun : appendedNames 5 11 with
  | mk result left =>
    obtain ⟨old', new'⟩ := left
    rw [hrun] at hreport hstore
    cases hreport
    refine ⟨_, old', new', rfl, rfl, rfl, ?_⟩
    rw [Store.tablesOf_of_current hstore]
    decide +kernel

end SqlMaps.Migrator
