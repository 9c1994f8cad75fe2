import SqlMaps.Proofs.Engine.Snapshots
import SqlMaps.Proofs.Session.Failures

/-! Engines that keep a version beside their tables.

`Versioned` are the laws of the version: it is what the engine answers when it is asked for it, and
neither questions nor transactions nor added rows change it. An engine whose version is known keeps
tables like any other (`Versioned.bearing`), so whatever is known of tables is known with the version.

Where nothing fails, a caller finds the version and the tables (`yields_userVersion`,
`yields_snapshotTables`). -/
namespace SqlMaps

namespace Relational
variable {σ : Type} {e : Engine σ} {v : Tabular e}

/-- An INSERT that succeeds adds exactly one row to its table, and leaves the others alone. -/
def Tabular.AddsOne (v : Tabular e) : Prop :=
  ∀ {s s' sql name columns values n t}, v.sound s →
    Sql.Command.read? sql = some (.insert name columns values) → e.execute sql s = (.ok n, s') →
    t ∈ v.tables s → t.name = name →
    ∃ rows, rows.length = t.rows.length + 1 ∧ v.Shows (replace (t.withRows rows) (v.tables s)) s'

theorem Tabular.Appends.addsOne (h : v.Appends) : v.AddsOne := by
  intro s s' sql name columns values n t hs hread he ht hname
  obtain ⟨id, hshows⟩ := h hs hread he ht hname
  exact ⟨_, by simp, hshows⟩

/-- The version that an engine keeps. -/
structure Versioned (v : Tabular e) where
  version : σ → Int64
  answer : ∀ {s s' sql rows}, v.sound s → Sql.Command.read? sql = some .readVersion →
    e.query sql s = (.ok rows, s') → ∃ column, rows = ⟨[column], [[.integer (version s)]]⟩
  query : ∀ {s s' sql command rows}, v.sound s → Sql.Command.read? sql = some command →
    asks command = true → e.query sql s = (.ok rows, s') → version s' = version s
  bracket : ∀ {s s' sql command}, v.sound s → Sql.Command.read? sql = some command →
    (command = .commit ∨ ∃ mode, command = .begin mode) → e.batch sql s = (.ok (), s') →
    version s' = version s
  insert : ∀ {s s' sql name columns values n}, v.sound s →
    Sql.Command.read? sql = some (.insert name columns values) → e.execute sql s = (.ok n, s') →
    version s' = version s

namespace Versioned
variable (w : Versioned v) (version : Int64)

/-- The tables of the engine while it bears the version. -/
def bearing : Tabular e where
  tables := v.tables
  sound s := v.sound s ∧ w.version s = version
  distinct hs := v.distinct hs.1
  stored hs := v.stored hs.1
  query hs hread hasks hq := by
    obtain ⟨hsound, htables, hanswers⟩ := v.query hs.1 hread hasks hq
    exact ⟨⟨hsound, (w.query hs.1 hread hasks hq).trans hs.2⟩, htables, hanswers⟩
  bracket hs hread hcontrol hb := by
    obtain ⟨hsound, htables⟩ := v.bracket hs.1 hread hcontrol hb
    exact ⟨⟨hsound, (w.bracket hs.1 hread hcontrol hb).trans hs.2⟩, htables⟩

theorem addsOne_bearing (h : v.AddsOne) : (w.bearing version).AddsOne := by
  intro s s' sql name columns values n t hs hread he ht hname
  obtain ⟨rows, hlength, hshows⟩ := h hs.1 hread he ht hname
  exact ⟨rows, hlength, ⟨hshows.sound, (w.insert hs.1 hread he).trans hs.2⟩, hshows.tables_eq⟩

end Versioned

end Relational

namespace Caller
open Attempt Relational
variable {σ : Type} (c : Caller σ) {v : Tabular c.engine} {tables : List Table}
  {owner : Option Thread}

/-! ### The version -/

/-- A caller that asks for the version is told it. -/
theorem gives_version (w : Versioned v) (version : Int64) :
    Gives (c.Finds (w.bearing version) tables owner) c.userVersion fun found s =>
      found = version ∧ c.Finds (w.bearing version) tables owner s := by
  intro s found s' hs h
  obtain ⟨rows, s₁, hquery, hrest⟩ := run_bind_eq_ok h
  obtain ⟨-, hs₁⟩ := c.gives_query (w.bearing version) Sql.read?_readVersion rfl hs hquery
  rw [run_query] at hquery
  cases hq : c.engine.query Sql.Command.readVersion.text s.store with
  | mk r store =>
    rw [hq] at hquery
    cases hquery
    obtain ⟨column, rfl⟩ := w.answer hs.tables.sound.1 Sql.read?_readVersion hq
    cases hrest
    exact ⟨hs.tables.sound.2, hs₁⟩

/-- Only a question that is not answered keeps it from being told. -/
theorem yields_userVersion (w : Versioned v) (version : Int64) :
    Yields Session.failures (c.Finds (w.bearing version) tables owner) c.userVersion fun found s =>
      found = version ∧ c.Finds (w.bearing version) tables owner s := by
  have hblames : Yields Session.failures (c.Finds (w.bearing version) tables owner) c.userVersion
      fun _ _ => True := by
    intro s hs
    rw [userVersion, run_bind]
    obtain ⟨rows, s₁, hquery, -, hle⟩ | ⟨e, s₁, hquery, hlt⟩ :=
      c.yields_query Sql.Command.readVersion.text trivial
    · rw [hquery]
      rw [run_query] at hquery
      cases hq : c.engine.query Sql.Command.readVersion.text s.store with
      | mk r store =>
        rw [hq] at hquery
        cases hquery
        obtain ⟨column, rfl⟩ := w.answer hs.tables.sound.1 Sql.read?_readVersion hq
        exact .inl ⟨w.version s.store, _, rfl, trivial, hle⟩
    · rw [hquery]
      exact .inr ⟨e, s₁, rfl, hlt⟩
  exact hblames.gives id (c.gives_version w version)

/-! ### The tables -/

section Tables
variable (v)

theorem yields_answer (about : String) {command : Sql.Command}
    (hread : Sql.Command.read? command.text = some command) (hasks : asks command = true) :
    Yields Session.failures (c.Finds v tables owner) (c.queryAbout about command) fun rows s =>
      Answers tables command rows ∧ c.Finds v tables owner s :=
  (c.yields_queryAbout about command).gives (fun _ => trivial)
    (c.gives_queryAbout v about hread hasks)

theorem yields_snapshotTable {t : Table} (ht : t ∈ tables) :
    Yields Session.failures (c.Finds v tables owner) (c.snapshotTable t.name) fun found s =>
      found = t.snapshot ∧ c.Finds v tables owner s := by
  have hblames : Yields Session.failures (c.Finds v tables owner) (c.snapshotTable t.name)
      fun _ _ => True := by
    refine yields_bind (c.yields_answer v t.name (Sql.read?_columns t.name) rfl) fun empty => ?_
    refine yields_of_pre And.right ?_
    refine yields_bind (c.yields_answer v t.name (Sql.read?_countRows t.name) rfl) fun counted => ?_
    refine yields_of_fact fun hcount => ?_
    obtain ⟨column, n, rfl, -⟩ := hcount t ht rfl
    exact yields_bind (yields_settled rfl) fun _ => (yields_pure _).post fun _ => trivial
  exact hblames.gives id (c.gives_snapshotTable v ht)

theorem yields_snapshotAll {some : List Table} (hsome : some ⊆ tables) :
    Yields Session.failures (c.Finds v tables owner) (c.snapshotAll (some.map Table.name))
      fun found s => found = (visible some).map Table.snapshot ∧ c.Finds v tables owner s := by
  have hblames : Yields Session.failures (c.Finds v tables owner)
      (c.snapshotAll (some.map Table.name)) fun _ s => c.Finds v tables owner s := by
    induction some with
    | nil => exact (yields_pure _).post And.right
    | cons t rest ih =>
      have hrest := ih fun u hu => hsome (List.mem_cons_of_mem t hu)
      rw [List.map_cons, snapshotAll]
      split
      · exact hrest
      · refine yields_bind (c.yields_snapshotTable v (hsome (List.mem_cons_self ..))) fun _ => ?_
        refine yields_of_pre And.right (yields_bind hrest fun _ => ?_)
        exact (yields_pure _).post And.right
  exact hblames.gives id (c.gives_snapshotAll v hsome)

/-- Only a question that is not answered keeps the tables from being seen. -/
theorem yields_snapshotTables :
    Yields Session.failures (c.Finds v tables owner) c.snapshotTables fun found s =>
      found = (visible tables).map Table.snapshot ∧ c.Finds v tables owner s := by
  refine yields_bind (c.yields_answer v _ Sql.read?_tableNames rfl) fun rows => ?_
  refine yields_of_fact fun hrows => ?_
  rw [names_of_answers hrows]
  exact c.yields_snapshotAll v fun _ h => h

end Tables

end Caller

end SqlMaps
