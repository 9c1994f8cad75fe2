import SqlMaps.Proofs.Migration.Parallel

/-! A policy that restricts nothing is no policy.

Where the tables to be filled are empty, a policy that ignores nothing, saves every table and adds
every row makes a migration do what it does without a policy. The two ways of copying rows are one
computation for whole rows (`placeRows_eq_copyRows`); what is left of the policy are its questions
for row ids, and beside these both migrations are `Parallel` (`run_unrestricted`). -/
namespace SqlMaps
open Attempt
variable {σ : Type}

/-- Nothing is ignored, every table is saved, and every row is added. -/
structure RetentionPolicy.Unrestricted (policy : RetentionPolicy) : Prop where
  ignoresTable : ∀ table, policy.ignoresTable table = false
  ignoresColumn : ∀ table column, policy.ignoresColumn table column = false
  savesTable : ∀ table old new, policy.savesTable table old new = true
  disposition : ∀ table row old new, policy.disposition table row old new = .insert

namespace Migrator

/-- The migrator with a policy to ask. -/
def asking (m : Migrator σ) (policy : RetentionPolicy) : Migrator σ :=
  { m with policy := some policy }

variable {m : Migrator σ} {policy : RetentionPolicy} {empty : String → Prop}

/-! ### Rows -/

section Rows
variable {table : String} {columns : List String}

/-- A whole row is added as it is. -/
theorem placeRow_eq (hpolicy : policy.Unrestricted) (hcolumns : columns ≠ []) {id : Int64}
    {values : List Value} (hlength : values.length = columns.length) :
    (m.asking policy).placeRow policy table []
      ⟨Sql.rowIdAlias :: columns, .integer id :: values⟩ = (do
        discard (m.write (.insert table columns values))
        countInserted) := by
  have hid : rowId ⟨Sql.rowIdAlias :: columns, .integer id :: values⟩ = .ok id := rfl
  have hkept : (Record.tail ⟨Sql.rowIdAlias :: columns, .integer id :: values⟩).entries.filter
      (fun entry => !policy.ignoresColumn table entry.1) = columns.zip values :=
    List.filter_eq_self.2 fun a _ => by simp [hpolicy.ignoresColumn]
  have hentries : (columns.zip values).isEmpty = false := by
    cases columns with
    | nil => exact absurd rfl hcolumns
    | cons column columns => cases values <;> simp_all
  have hinsert : (m.asking policy).insertRow policy table
      (Record.tail ⟨Sql.rowIdAlias :: columns, .integer id :: values⟩) = (do
        discard (m.write (.insert table columns values))
        countInserted) := by
    simp only [insertRow, hkept, hentries, List.map_fst_zip hlength.ge, List.map_snd_zip hlength.le]
    rfl
  rw [← hinsert]
  funext y
  show ((m.asking policy).placeRow policy table [] _).run y = _
  rw [placeRow, hid, run_bind, run_settled]
  dsimp only
  rw [run_bind, run_get]
  dsimp only
  rw [hpolicy.disposition]
  rfl

/-- Rows that are whole. -/
def Whole (columns : List String) (rows : List (List Value)) : Prop :=
  ∀ row ∈ rows, ∃ id values, row = .integer id :: values ∧ values.length = columns.length

theorem placeRows_eq_copyRows (hpolicy : policy.Unrestricted) (hcolumns : columns ≠ [])
    {rows : List (List Value)} (hrows : Whole columns rows) :
    (m.asking policy).placeRows policy table [] (rows.map (⟨Sql.rowIdAlias :: columns, ·⟩)) =
      m.copyRows table columns rows := by
  induction rows with
  | nil => rfl
  | cons row rows ih =>
    obtain ⟨⟨id, values, rfl, hlength⟩, hrest⟩ := List.forall_mem_cons.1 hrows
    rw [List.map_cons, placeRows, placeRow_eq hpolicy hcolumns hlength, ih hrest, bind_assoc]
    rfl

theorem parallel_copyRows (rows : List (List Value)) :
    m.Parallel empty (m.copyRows table columns rows) (m.copyRows table columns rows) := by
  induction rows with
  | nil => exact parallel_pure ()
  | cons row rows ih =>
    have hwrite : m.Parallel empty (m.write (.insert table columns row.tail))
        (m.write (.insert table columns row.tail)) :=
      m.parallel_write empty (show "INSERT INTO " ≠ "SELECT ROWID FROM " by decide)
    refine parallel_bind (parallel_bind hwrite fun _ => parallel_pure ()) fun _ => ?_
    exact parallel_bind (parallel_account _) fun _ => ih

end Rows

/-! ### Tables -/

theorem speaks_onOld {α : Type} {x : SessionM σ α} (h : Follows m.old.Talks x) :
    Follows m.Speaks (onOld x) :=
  fun s => ⟨h s.old, Course.refl _⟩

theorem speaks_onNew {α : Type} {x : SessionM σ α} (h : Follows m.new.Talks x) :
    Follows m.Speaks (onNew x) :=
  fun s => ⟨Course.refl _, h s.new⟩

/-- Whatever is copied, with whatever policy, it is done by statements to both databases. -/
theorem copiesAlong_speaks (m : Migrator σ) (policy : Option RetentionPolicy) :
    ({ m with policy } : Migrator σ).CopiesAlong m.Speaks where
  queryOld _ := speaks_onOld (m.old.talks_query _)
  queryNew _ := speaks_onNew (m.new.talks_query _)
  write _ := speaks_onNew <| follows_bind (follows_bracket (m.new.talks_begin _)
    m.new.talks_setSuccessful m.new.talks_finish fun s => ⟨_, m.new.heard_change _ s⟩) fun _ =>
      follows_pure _
  account _ _ := ⟨Course.refl _, Course.refl _⟩

/-- The old database is in the same state in both. -/
theorem parallel_queryOld (sql : String) :
    m.Parallel empty (onOld (m.old.query sql)) (onOld (m.old.query sql)) where
  left := speaks_onOld (m.old.talks_query sql)
  right := speaks_onOld (m.old.talks_query sql)
  level {s t os xs ys} hlevel _ hxs hys _ := by
    obtain rfl := hxs.unique (Caller.heard_nil rfl rfl)
    obtain rfl := hys.unique (Caller.heard_nil rfl rfl)
    have hold := hlevel.old
    refine ⟨?_, ⟨?_, hlevel.transaction, hlevel.report⟩, rfl⟩
    · show ((m.old.query sql).run s.old).1 = ((m.old.query sql).run t.old).1
      rw [hold]
    · show ((m.old.query sql).run s.old).2 = ((m.old.query sql).run t.old).2
      rw [hold]

/-- What the old database answers to a query for rows. -/
theorem whole_of_heard {table : String} {columns : List String} (hcolumns : columns ≠ [])
    {s : Migration σ} {os : List Exchange} {rows : RowSet}
    (hheard : m.old.Heard s.old os
      ((onOld (m.old.query (Sql.Command.copyRows table columns).text)).run s).2.old)
    (hcopies : ∀ x ∈ os, x.AnswersCopy)
    (hrows : ((onOld (m.old.query (Sql.Command.copyRows table columns).text)).run s).1 = .ok rows) :
    rows.columns = Sql.rowIdAlias :: columns ∧ Whole columns rows.rows := by
  obtain rfl := hheard.unique (m.old.heard_query _ s.old)
  have hanswer : ((m.old.query (Sql.Command.copyRows table columns).text).run s.old).1 = .ok rows :=
    hrows
  rw [hanswer] at hcopies
  obtain ⟨hnames, hfull, hids⟩ :=
    hcopies _ (List.mem_singleton_self _) table columns rows hcolumns rfl rfl
  refine ⟨hnames, fun row hrow => ?_⟩
  obtain ⟨id, hid⟩ := hids row hrow
  cases row with
  | nil => cases hid
  | cons value values =>
    cases hid
    exact ⟨id, values, rfl, by simpa [RowSet.width, hnames] using hfull _ hrow⟩

/-- Asking for row ids sends one query, whatever is read from the answer. -/
theorem heard_rowIds (table : String) (t : Migration σ) :
    m.new.Heard t.new [⟨.query, (Sql.Command.rowIds table).text,
      .ofResult .rows ((m.new.query (Sql.Command.rowIds table).text).run t.new).1⟩]
      ((m.rowIds table).run t).2.new := by
  have hquery := m.new.heard_query (Sql.Command.rowIds table).text t.new
  cases hrun : (m.new.query (Sql.Command.rowIds table).text).run t.new with
  | mk r u =>
    rw [hrun] at hquery
    rw [rowIds, run_bind, run_onNew hrun]
    cases r with
    | error e => exact hquery
    | ok rows => exact hquery

/-- An answer without rows has no row ids in it. -/
theorem run_rowIds_of_nothing {table : String} {t : Migration σ}
    (h : Exchange.FindsNothing ⟨.query, (Sql.Command.rowIds table).text,
      .ofResult .rows ((m.new.query (Sql.Command.rowIds table).text).run t.new).1⟩) :
    ∃ u, (m.rowIds table).run t = (.ok [], { t with new := u }) ∧
      u.transaction = t.new.transaction := by
  obtain ⟨rows, hrows, hnone⟩ := h
  cases hrun : (m.new.query (Sql.Command.rowIds table).text).run t.new with
  | mk r u =>
    rw [hrun] at hrows
    cases r with
    | error e => cases hrows
    | ok found =>
      cases hrows
      have hkept : ((m.new.query (Sql.Command.rowIds table).text).run t.new).2.transaction =
          t.new.transaction := rfl
      refine ⟨u, ?_, by rwa [hrun] at hkept⟩
      have hempty : rows = ⟨rows.columns, []⟩ := by rw [← hnone]
      rw [rowIds, run_bind, run_onNew hrun, hempty]
      rfl

/-- A question for row ids, which the other migration does not ask, finds none. -/
theorem parallel_rowIds {α : Type} {table : String} (htable : empty table) {x : MigrationM σ α}
    {g : List Int64 → MigrationM σ α} (hg : ∀ ids, Follows m.Speaks (g ids))
    (h : m.Parallel empty x (g [])) : m.Parallel empty x (m.rowIds table >>= g) where
  left := h.left
  right := follows_bind ((m.copiesAlong_speaks m.policy).rowIds table) hg
  level {s t os xs ys} hlevel hos hxs hys hreliable := by
    have hquery := heard_rowIds (m := m) table t
    obtain ⟨-, zs, hzs⟩ := follows_rest hg (m.rowIds table) t
    obtain rfl := hys.unique (hquery.trans hzs)
    have hasks : withoutRowIds ([⟨.query, (Sql.Command.rowIds table).text,
        .ofResult .rows ((m.new.query (Sql.Command.rowIds table).text).run t.new).1⟩] ++ zs) =
        withoutRowIds zs := by
      simp [withoutRowIds, Sql.Command.opening]
    have hreliable' : Reliable empty os xs zs :=
      ⟨hreliable.copies, fun table htable x hx => hreliable.ids table htable x
        (List.mem_append_right _ hx), hasks ▸ hreliable.alike⟩
    obtain ⟨u, hrun, hkept⟩ := run_rowIds_of_nothing (hreliable.ids table htable _
      (List.mem_append_left _ (List.mem_singleton_self _)) rfl)
    rw [hasks]
    rw [run_bind, hrun] at hzs ⊢
    exact h.level ⟨hlevel.old, hlevel.transaction.trans hkept.symm, hlevel.report⟩ hos hxs hzs
      hreliable'

/-- A table that is empty in the new database is copied alike. -/
theorem parallel_copyTable (hnone : m.policy = none) (hpolicy : policy.Unrestricted)
    {old new : TableSnapshot} (htable : empty old.name) :
    m.Parallel empty (m.copyTable old new) ((m.asking policy).copyTable old new) := by
  have halong : m.CopiesAlong m.Speaks := m.copiesAlong_speaks m.policy
  have halong' : (m.asking policy).CopiesAlong m.Speaks := m.copiesAlong_speaks (some policy)
  unfold copyTable
  dsimp only [asking]
  rw [hnone]
  split
  · exact parallel_pure false
  · next hempty =>
    have hshared : old.sharedColumns new ≠ [] := by simpa using hempty
    refine parallel_bind_of (P := fun rows => rows.columns = Sql.rowIdAlias ::
        old.sharedColumns new ∧ Whole (old.sharedColumns new) rows.rows)
      (parallel_queryOld _) (whole_of_heard hshared) (fun rows => ?_) (fun rows => ?_) ?_
    · exact follows_bind (halong.copyRows _ _ _) fun _ => follows_pure _
    · refine follows_bind (halong.rowIds _) fun ids => ?_
      exact follows_bind (halong'.placeRows policy _ ids _) fun _ => follows_pure _
    · rintro rows ⟨hnames, hwhole⟩
      refine parallel_rowIds htable (fun ids => ?_) ?_
      · exact follows_bind (halong'.placeRows policy _ ids _) fun _ => follows_pure _
      · have hrows : (m.asking policy).placeRows policy old.name [] rows.records =
            m.copyRows old.name (old.sharedColumns new) rows.rows := by
          rw [RowSet.records, hnames]
          exact placeRows_eq_copyRows hpolicy hshared hwhole
        show m.Parallel empty _ ((m.asking policy).placeRows policy old.name [] rows.records >>= _)
        rw [hrows]
        exact parallel_bind (parallel_copyRows rows.rows) fun _ => parallel_pure true

/-- What the answer to whether a table is to be copied makes of it, where no account is asked. -/
theorem copyInto_eq {newTables : List TableSnapshot} {old new : TableSnapshot} {copies : Bool}
    (hfind : newTables.reverse.find? (·.name = old.name) = some new)
    (hcopies : ∀ r, m.shouldCopy r old new = copies) :
    m.copyInto newTables old = if copies then m.copyTable old new else pure false := by
  funext y
  show (m.copyInto newTables old).run y = _
  rw [copyInto, hfind]
  dsimp only
  rw [run_bind, run_get]
  dsimp only
  rw [hcopies]
  rfl

theorem parallel_copyInto (hnone : m.policy = none) (hpolicy : policy.Unrestricted)
    {newTables : List TableSnapshot} {old : TableSnapshot}
    (hnew : ∀ new ∈ newTables, new.name = old.name → new.rowCount = 0 ∧ empty old.name) :
    m.Parallel empty (m.copyInto newTables old) ((m.asking policy).copyInto newTables old) := by
  cases hfind : newTables.reverse.find? (·.name = old.name) with
  | none =>
    simp only [copyInto, hfind]
    exact parallel_pure false
  | some new =>
    have hmem : new ∈ newTables := by simpa using List.mem_of_find?_eq_some hfind
    have hname : new.name = old.name := by simpa using List.find?_some hfind
    obtain ⟨hcount, htable⟩ := hnew new hmem hname
    have hfresh : ∀ r, m.shouldCopy r old new = old.hasRows := fun r => by
      simp [shouldCopy, hnone, TableSnapshot.hasRows, hcount]
    have hasked : ∀ r, (m.asking policy).shouldCopy r old new = old.hasRows := fun r => by
      simp [shouldCopy, asking, hpolicy.ignoresTable, hpolicy.savesTable]
    rw [copyInto_eq hfind hfresh, copyInto_eq hfind hasked]
    split
    · exact parallel_copyTable hnone hpolicy htable
    · exact parallel_pure false

theorem parallel_copyTables (hnone : m.policy = none) (hpolicy : policy.Unrestricted)
    {newTables oldTables : List TableSnapshot}
    (hnew : ∀ old ∈ oldTables, ∀ new ∈ newTables, new.name = old.name →
      new.rowCount = 0 ∧ empty old.name) :
    m.Parallel empty (m.copyTables newTables oldTables)
      ((m.asking policy).copyTables newTables oldTables) := by
  induction oldTables with
  | nil => exact parallel_pure ()
  | cons old rest ih =>
    obtain ⟨hold, hrest⟩ := List.forall_mem_cons.1 hnew
    refine parallel_bind (parallel_copyInto hnone hpolicy hold) fun copied => ?_
    cases copied with
    | true => exact parallel_bind (parallel_account _) fun _ => ih hrest
    | false => exact parallel_bind (parallel_account _) fun _ => ih hrest

theorem parallel_copyAll (hnone : m.policy = none) (hpolicy : policy.Unrestricted)
    {newTables oldTables : List TableSnapshot}
    (hnew : ∀ old ∈ oldTables, ∀ new ∈ newTables, new.name = old.name →
      new.rowCount = 0 ∧ empty old.name) :
    m.Parallel empty (m.copyAll oldTables newTables)
      ((m.asking policy).copyAll oldTables newTables) := by
  refine parallel_bind ?_ fun _ => parallel_account _
  exact parallel_bracket (m.steady_begin empty .exclusive) (m.steady_setSuccessful empty)
    (m.steady_finish empty) (parallel_copyTables hnone hpolicy hnew)

/-! ### A whole migration -/

/-- Two migrations from the same sessions come to the same, and the new database has been sent the
same statements and answered alike, but for questions for row ids that only the second one asked. -/
structure Agree {α : Type} (m : Migrator σ) (new : Session σ)
    (p q : Except RunError α × Session σ × Session σ) : Prop where
  result : p.1 = q.1
  old : p.2.1 = q.2.1
  transaction : p.2.2.transaction = q.2.2.transaction
  sent : m.new.exchanges new p.2.2 = withoutRowIds (m.new.exchanges new q.2.2)

/-- Where nothing was sent that belongs to copying, one migration is like another. -/
theorem agree_of_aside {α : Type} {new : Session σ} (p : Except RunError α × Session σ × Session σ)
    {xs : List Exchange} (h : m.new.Heard new xs p.2.2) (haside : ∀ x ∈ xs, Sql.Aside x.sql) :
    m.Agree new p p :=
  ⟨rfl, rfl, rfl, by
    rw [h.eq_exchanges, withoutRowIds_eq_self fun x hx =>
      Exchange.asksRowIds_of_aside (haside x hx)]⟩

/-- What a session has sent is nothing that belongs to copying. -/
def HeardAside (c : Caller σ) (s t : Session σ) : Prop :=
  ∃ xs, c.Heard s xs t ∧ ∀ x ∈ xs, Sql.Aside x.sql

theorem heardAside_of_logs {c : Caller σ} {s t : Session σ} (htalks : c.Talks s t)
    (hlogs : Logs (fun e => Sql.Aside e.sql) s t) : HeardAside c s t := by
  obtain ⟨xs, hxs⟩ := htalks
  exact ⟨xs, hxs, hxs.forall_sql hlogs⟩

theorem HeardAside.trans {c : Caller σ} {s t u : Session σ} (h : HeardAside c s t)
    (h' : HeardAside c t u) : HeardAside c s u := by
  obtain ⟨xs, hxs, haside⟩ := h
  obtain ⟨ys, hys, haside'⟩ := h'
  exact ⟨xs ++ ys, hxs.trans hys, List.forall_mem_append.2 ⟨haside, haside'⟩⟩

theorem heardAside_asked (c : Caller σ) (s : Session σ) : HeardAside c s (c.asked s) :=
  heardAside_of_logs (c.talks_query _ s)
    (c.logs_aside (show Sql.Command.readVersion.opening ∉ Sql.copyingStarts by decide) s)

theorem heardAside_snapshotTables (c : Caller σ) (s : Session σ) :
    HeardAside c s (c.snapshotTables.run s).2 :=
  heardAside_of_logs (c.talks_snapshotTables s) (c.logs_aside_snapshotTables s)

/-- A table had no rows when it was looked at. -/
def SeenEmpty (tables : List TableSnapshot) (table : String) : Prop :=
  ∃ t ∈ tables, t.name = table ∧ t.rowCount = 0

/-- What a computation makes of a migration, as both sessions and the account. -/
def outcome (p : Except RunError Unit × Migration σ) :
    Except RunError MigrationReport × Session σ × Session σ :=
  (p.1.map fun _ => p.2.report, p.2.old, p.2.new)

/-- The ways in which a migration comes as far as copying, where no policy has been asked yet: it
ends before, or the tables of both databases are found. -/
inductive Starts (m : Migrator σ) (old new : Session σ) : Prop where
  | ended (p : Except RunError MigrationReport × Session σ × Session σ) :
      HeardAside m.new new p.2.2 →
      (∀ policy, ({ m with policy } : Migrator σ).run.run (old, new) = p) → Starts m old new
  | copies {v v' : Int64} {oldTables newTables : List TableSnapshot} (w : Migration σ) :
      m.Found old new v v' oldTables newTables → HeardAside m.old old w.old →
      HeardAside m.new new w.new →
      (∀ policy, ({ m with policy } : Migrator σ).run.run (old, new) =
        outcome ((({ m with policy } : Migrator σ).copyAll oldTables newTables).run w)) →
      Starts m old new

theorem starts (m : Migrator σ) (old new : Session σ) : m.Starts old new := by
  have hrun : ∀ policy, ({ m with policy } : Migrator σ).run.run (old, new) =
      outcome (({ m with policy } : Migrator σ).steps.run ⟨old, new, .start 0 0⟩) := fun _ => rfl
  simp only [run_steps] at hrun
  have hold := heardAside_asked m.old old
  have hnew := heardAside_asked m.new new
  cases hv : m.old.foundVersion old with
  | error e =>
    simp only [hv] at hrun
    exact .ended _ ⟨[], Caller.heard_nil rfl rfl, by simp⟩ hrun
  | ok v =>
    cases hv' : m.new.foundVersion new with
    | error e =>
      simp only [hv, hv'] at hrun
      exact .ended _ hnew hrun
    | ok v' =>
      simp only [hv, hv'] at hrun
      by_cases hlt : v < v'
      · have hlookOld := heardAside_snapshotTables m.old (m.old.asked old)
        have hlookNew := heardAside_snapshotTables m.new (m.new.asked new)
        simp only [if_pos hlt, lookAndCopy] at hrun
        cases ht : m.old.snapshotTables.run (m.old.asked old) with
        | mk r s =>
          simp only [run_bind, run_onOld (y := ⟨m.old.asked old, m.new.asked new, _⟩) ht] at hrun
          cases r with
          | error e =>
            exact .ended (outcome (.error e, ⟨s, m.new.asked new, .start v v'⟩)) hnew hrun
          | ok oldTables =>
            cases hu : m.new.snapshotTables.run (m.new.asked new) with
            | mk r' s' =>
              rw [ht] at hlookOld
              rw [hu] at hlookNew
              simp only [run_onNew (y := ⟨s, m.new.asked new, _⟩) hu] at hrun
              cases r' with
              | error e =>
                exact .ended (outcome (.error e, ⟨s, s', .start v v'⟩)) (hnew.trans hlookNew) hrun
              | ok newTables =>
                exact .copies ⟨s, s', .start v v'⟩
                  ⟨hv, hv', congrArg Prod.fst ht, congrArg Prod.fst hu⟩ (hold.trans hlookOld)
                  (hnew.trans hlookNew) hrun
      · simp only [if_neg hlt] at hrun
        exact .ended _ hnew hrun

/-- A policy that restricts nothing changes nothing about a migration into empty tables, but that
it asks for the row ids of the tables. The databases are relied on to answer the queries for rows
with whole rows, to find no row ids in tables that were seen to be empty, and to answer the
statements that both migrations send alike. -/
theorem run_unrestricted (m : Migrator σ) {policy : RetentionPolicy} (hnone : m.policy = none)
    (hpolicy : policy.Unrestricted) (old new : Session σ)
    (hempty : ∀ {v v' oldTables newTables}, m.Found old new v v' oldTables newTables →
      ∀ t ∈ oldTables, ∀ u ∈ newTables, u.name = t.name → u.rowCount = 0)
    (hcopies : ∀ x ∈ m.old.exchanges old (m.run.run (old, new)).2.1, x.AnswersCopy)
    (hids : ∀ {v v' oldTables newTables}, m.Found old new v v' oldTables newTables →
      ∀ table, SeenEmpty newTables table →
      ∀ x ∈ m.new.exchanges new ((m.asking policy).run.run (old, new)).2.2,
        x.sql = (Sql.Command.rowIds table).text → x.FindsNothing)
    (halike : AnsweredAlike (m.new.exchanges new (m.run.run (old, new)).2.2)
      (withoutRowIds (m.new.exchanges new ((m.asking policy).run.run (old, new)).2.2))) :
    m.Agree new (m.run.run (old, new)) ((m.asking policy).run.run (old, new)) := by
  cases m.starts old new with
  | ended p haside hrun =>
    have hplain : m.run.run (old, new) = p := hrun m.policy
    have hasked : (m.asking policy).run.run (old, new) = p := hrun (some policy)
    obtain ⟨xs, hxs, hall⟩ := haside
    rw [hplain, hasked]
    exact agree_of_aside p hxs hall
  | @copies v v' oldTables newTables w hfound hlookOld hlookNew hrun =>
    have hplain : m.run.run (old, new) = outcome ((m.copyAll oldTables newTables).run w) :=
      hrun m.policy
    have hasked : (m.asking policy).run.run (old, new) =
        outcome (((m.asking policy).copyAll oldTables newTables).run w) := hrun (some policy)
    rw [hplain] at hcopies halike ⊢
    simp only [hasked] at hids halike ⊢
    have hparallel : m.Parallel (SeenEmpty newTables) (m.copyAll oldTables newTables)
        ((m.asking policy).copyAll oldTables newTables) :=
      parallel_copyAll hnone hpolicy fun t ht u hu hname =>
        have hcount := hempty hfound t ht u hu hname
        ⟨hcount, u, hu, hname, hcount⟩
    obtain ⟨ps, hps, -⟩ := hlookOld
    obtain ⟨us, hus, haside⟩ := hlookNew
    obtain ⟨⟨os, hos⟩, xs, hxs⟩ := hparallel.left w
    obtain ⟨-, ys, hys⟩ := hparallel.right w
    have hold := (hps.trans hos).eq_exchanges
    have hleft := (hus.trans hxs).eq_exchanges
    have hright := (hus.trans hys).eq_exchanges
    have hsame : withoutRowIds (us ++ ys) = us ++ withoutRowIds ys := by
      rw [withoutRowIds_append,
        withoutRowIds_eq_self fun x hx => Exchange.asksRowIds_of_aside (haside x hx)]
    have hreliable : Reliable (SeenEmpty newTables) os xs ys := by
      refine ⟨fun x hx => hcopies x (hold ▸ List.mem_append_right _ hx), fun table htable x hx =>
        hids hfound table htable x (hright ▸ List.mem_append_right _ hx), ?_⟩
      have hall : AnsweredAlike (us ++ xs) (us ++ withoutRowIds ys) := by
        rw [← hsame, ← hleft, ← hright]
        exact halike
      exact hall.right rfl
    obtain ⟨hresult, hlevel, heq⟩ := hparallel.level (Level.refl w) hos hxs hys hreliable
    refine ⟨?_, hlevel.old, hlevel.transaction, ?_⟩
    · show Except.map (fun _ => _) _ = Except.map (fun _ => _) _
      rw [hresult, hlevel.report]
    · show m.new.exchanges new ((m.copyAll oldTables newTables).run w).2.new =
        withoutRowIds (m.new.exchanges new
          (((m.asking policy).copyAll oldTables newTables).run w).2.new)
      rw [hleft, hright, hsame, heq]

/-- Keeps everything, and adds every row. -/
def eager : RetentionPolicy :=
  { RetentionPolicy.permissive with disposition := fun _ _ _ _ => .insert }

/-- A migrator without a policy, between engines that answer by rules. -/
def plainly : Migrator (List Rule) :=
  ⟨⟨Script.engine, .immediate, "main"⟩, ⟨Script.engine, .immediate, "main"⟩, none⟩

/-- A database with a table of guests, of whom two are told when they are asked for. -/
def guests (version rowCount : Int64) : List Rule :=
  let reply (sql : String) (columns : List String) (rows : List (List Value)) : Rule :=
    { Rule.fallback with sql := some sql, rows := ⟨columns, rows⟩ }
  [reply (Sql.Command.text .readVersion) ["user_version"] [[.integer version]],
    reply (Sql.Command.text .tableNames) ["name"] [[.text "guest"]],
    reply (Sql.Command.text (.columns "guest")) ["name"] [],
    reply (Sql.Command.text (.countRows "guest")) ["count"] [[.integer rowCount]],
    reply (Sql.Command.text (.copyRows "guest" ["name"])) [Sql.rowIdAlias, "name"]
      [[.integer 3, .text "ann"], [.integer 7, .text "bob"]]]

def oldGuests : Session (List Rule) := .start (guests 1 2)

def newGuests : Session (List Rule) := .start (guests 2 0)

theorem run_unrestricted_eager :
    plainly.policy = none ∧ eager.Unrestricted ∧
      plainly.Agree newGuests (plainly.run.run (oldGuests, newGuests))
        ((plainly.asking eager).run.run (oldGuests, newGuests)) ∧
      ((plainly.new.exchanges newGuests
        ((plainly.asking eager).run.run (oldGuests, newGuests)).2.2).filter
          Exchange.isInsert).map Exchange.sql =
        ["INSERT INTO \"guest\" (\"name\") VALUES ('ann')",
          "INSERT INTO \"guest\" (\"name\") VALUES ('bob')"] := by
  have hpolicy : eager.Unrestricted :=
    ⟨fun _ => rfl, fun _ _ => rfl, fun _ _ _ => rfl, fun _ _ _ _ => rfl⟩
  have hsame : plainly.new.exchanges newGuests (plainly.run.run (oldGuests, newGuests)).2.2 =
      withoutRowIds (plainly.new.exchanges newGuests
        ((plainly.asking eager).run.run (oldGuests, newGuests)).2.2) := by
    decide +kernel
  have hinserts : ((plainly.new.exchanges newGuests
      ((plainly.asking eager).run.run (oldGuests, newGuests)).2.2).filter
        Exchange.isInsert).map Exchange.sql =
      ["INSERT INTO \"guest\" (\"name\") VALUES ('ann')",
        "INSERT INTO \"guest\" (\"name\") VALUES ('bob')"] := by
    decide +kernel
  have hold : plainly.old.exchanges oldGuests (plainly.run.run (oldGuests, newGuests)).2.1 = [
      ⟨.query, Sql.Command.text .readVersion, .rows ⟨["user_version"], [[.integer 1]]⟩⟩,
      ⟨.query, Sql.Command.text .tableNames, .rows ⟨["name"], [[.text "guest"]]⟩⟩,
      ⟨.query, Sql.Command.text (.columns "guest"), .rows ⟨["name"], []⟩⟩,
      ⟨.query, Sql.Command.text (.countRows "guest"), .rows ⟨["count"], [[.integer 2]]⟩⟩,
      ⟨.query, Sql.Command.text (.copyRows "guest" ["name"]), .rows ⟨[Sql.rowIdAlias, "name"],
        [[.integer 3, .text "ann"], [.integer 7, .text "bob"]]⟩⟩] := by
    decide +kernel
  have hids : (plainly.new.exchanges newGuests
      ((plainly.asking eager).run.run (oldGuests, newGuests)).2.2).all (fun x =>
        !x.asksRowIds || decide (x.answer = .rows .empty)) = true := by
    decide +kernel
  have htables : (plainly.new.snapshotTables.run (plainly.new.asked newGuests)).1 =
      .ok [⟨"guest", ["name"], 0⟩] := by
    decide +kernel
  refine ⟨rfl, hpolicy, run_unrestricted plainly rfl hpolicy oldGuests newGuests ?_ ?_ ?_ ?_,
    hinserts⟩
  · intro v v' oldTables newTables hfound t _ u hu _
    have hnew := hfound.newTables
    rw [htables] at hnew
    cases hnew
    rw [List.mem_singleton.1 hu]
  · rw [hold]
    simp only [List.forall_mem_cons]
    refine ⟨?_, ?_, ?_, ?_, Exchange.answersCopy_copyRows (by decide) ?_, by simp⟩
    iterate 4 exact Exchange.answersCopy_of_other (by decide +kernel)
    exact ⟨rfl, by decide, by simp⟩
  · intro v v' oldTables newTables _ table _ x hx hsql
    have hasks : x.asksRowIds = true := by
      rw [Exchange.asksRowIds, hsql, Sql.opensWith_text (by simp [Sql.copyingStarts])]
      rfl
    have hx' := List.all_eq_true.1 hids x hx
    rw [hasks] at hx'
    exact ⟨.empty, of_decide_eq_true (by simpa using hx'), rfl⟩
  · rw [← hsame]
    exact .refl _

end Migrator

end SqlMaps
