import SqlMaps.Migration.Basic
import SqlMaps.Proofs.Session.Sending

/-! Migrations are all or nothing.

A migration only looks at both databases until it begins. From there on it queries the old
one, and works in the transaction that it owns in the new one: `Copies` is what every step
of copying does, however far it comes, as it is what the queries, the writes and the entries in
the account do (`CopiesAlong.copyTables`). So the statements that open and close that
transaction are those of the one bracket around them (`copyAll_cases`), and which of them
were sent is told by the result alone (`run_allOrNothing`). -/
namespace SqlMaps.Migrator
open Attempt
variable {σ α : Type} (m : Migrator σ)

/-! ### Copying inside the transaction -/

/-- The old session is only read; the new one, if the thread owns its transaction, keeps
it and is sent no control statement. -/
structure Copies (thread : Thread) (x y : Migration σ) : Prop where
  old : Sends Entry.Reads x.old y.old
  new : x.new.owner? = some thread → Sends Entry.Works x.new y.new

theorem owner?_of_sends {P : Entry → Prop} {s s' : Session σ} (h : Sends P s s') :
    s'.owner? = s.owner? := by
  rw [Session.owner?, h.transaction]
  rfl

instance (thread : Thread) : Course (Copies thread : Migration σ → Migration σ → Prop) where
  refl x := ⟨Course.refl x.old, fun _ => Course.refl x.new⟩
  trans h h' := by
    refine ⟨Course.trans h.old h'.old, fun ho => ?_⟩
    have hnew := h.new ho
    exact Course.trans hnew (h'.new ((owner?_of_sends hnew).trans ho))

section
variable {thread : Thread}

theorem copies_onOld {x : SessionM σ α} (h : Follows (Sends Entry.Reads) x) :
    Follows (Copies thread) (onOld x) :=
  fun y => ⟨h y.old, fun _ => Course.refl y.new⟩

theorem copies_onNew {x : SessionM σ α} (h : Follows (Sends Entry.Reads) x) :
    Follows (Copies thread) (onNew x) :=
  fun y => ⟨Course.refl y.old, fun _ => (h y.new).mono fun _ => Entry.Reads.works⟩

theorem copies_account (f : MigrationReport → MigrationReport) :
    Follows (Copies thread) (account f : MigrationM σ Unit) :=
  fun y => ⟨Course.refl y.old, fun _ => Course.refl y.new⟩

end

theorem copies_write {command : Sql.Command} (h : command.isControl = false) :
    Follows (Copies m.new.thread) (m.write command) := by
  refine fun y => ⟨Course.refl y.old, fun ho => ?_⟩
  obtain ⟨t, ht, howner⟩ := Option.map_eq_some_iff.mp ho
  show Sends Entry.Works y.new ((m.new.execute command.text).run y.new).2
  rw [m.new.run_execute_of_owner command.text ht howner]
  exact .of_sent ⟨by simp [Caller.entry], command.controls_text.trans h⟩

/-! ### What copying goes along with -/

/-- A relation along which the steps of copying take a migration: queries of both databases, writes
to the new one, and entries in the account. -/
structure CopiesAlong (R : Migration σ → Migration σ → Prop) : Prop where
  queryOld : ∀ {command : Sql.Command}, command.isControl = false →
    Follows R (onOld (m.old.query command.text))
  queryNew : ∀ {command : Sql.Command}, command.isControl = false →
    Follows R (onNew (m.new.query command.text))
  write : ∀ {command : Sql.Command}, command.isControl = false → Follows R (m.write command)
  account : ∀ f, Follows R (account f : MigrationM σ Unit)

namespace CopiesAlong
variable {m} {R : Migration σ → Migration σ → Prop} [Course R] (h : m.CopiesAlong R)
include h

theorem copyRows (table : String) (columns : List String) (rows : List (List Value)) :
    Follows R (m.copyRows table columns rows) := by
  induction rows with
  | nil => exact follows_pure _
  | cons row rows ih =>
    refine follows_bind (follows_map _ (h.write rfl)) fun _ => ?_
    exact follows_bind (h.account _) fun _ => ih

theorem rowIds (table : String) : Follows R (m.rowIds table) :=
  follows_bind (h.queryNew rfl) fun _ => follows_settled _

theorem updateRow (policy : RetentionPolicy) (table : String) (id : Int64) (row : Record) :
    Follows R (m.updateRow policy table id row) := by
  refine follows_bind follows_get fun x => ?_
  dsimp only
  split
  · exact h.account _
  · refine follows_bind (h.write rfl) fun changed => ?_
    split
    · exact h.account _
    · exact h.account _

theorem insertRow (policy : RetentionPolicy) (table : String) (row : Record) :
    Follows R (m.insertRow policy table row) := by
  unfold Migrator.insertRow
  dsimp only
  split
  · exact h.account _
  · exact follows_bind (follows_map _ (h.write rfl)) fun _ => h.account _

theorem placeRow (policy : RetentionPolicy) (table : String) (existing : List Int64)
    (row : Record) : Follows R (m.placeRow policy table existing row) := by
  refine follows_bind (follows_settled _) fun id => follows_bind follows_get fun x => ?_
  dsimp only
  split
  · exact h.account _
  · exact h.updateRow policy table id row.tail
  · split
    · exact h.updateRow policy table id row.tail
    · exact h.insertRow policy table row.tail

theorem placeRows (policy : RetentionPolicy) (table : String) (existing : List Int64)
    (rows : List Record) : Follows R (m.placeRows policy table existing rows) := by
  induction rows with
  | nil => exact follows_pure _
  | cons row rows ih => exact follows_bind (h.placeRow policy table existing row) fun _ => ih

theorem copyTable (old new : TableSnapshot) : Follows R (m.copyTable old new) := by
  unfold Migrator.copyTable
  dsimp only
  split
  · exact follows_pure _
  · refine follows_bind (h.queryOld rfl) fun rows => ?_
    cases m.policy with
    | none => exact follows_bind (h.copyRows _ _ _) fun _ => follows_pure _
    | some policy =>
      refine follows_bind (h.rowIds _) fun existing => ?_
      exact follows_bind (h.placeRows policy _ existing _) fun _ => follows_pure _

theorem copyInto (newTables : List TableSnapshot) (old : TableSnapshot) :
    Follows R (m.copyInto newTables old) := by
  unfold Migrator.copyInto
  split
  · exact follows_pure _
  · refine follows_bind follows_get fun x => ?_
    split
    · exact h.copyTable old _
    · exact follows_pure _

/-- Whatever tables there are, and however far copying comes. -/
theorem copyTables (newTables oldTables : List TableSnapshot) :
    Follows R (m.copyTables newTables oldTables) := by
  induction oldTables with
  | nil => exact follows_pure _
  | cons old rest ih =>
    refine follows_bind (h.copyInto newTables old) fun copied => ?_
    cases copied with
    | true => exact follows_bind (h.account _) fun _ => ih
    | false => exact follows_bind (h.account _) fun _ => ih

end CopiesAlong

theorem copiesAlong : m.CopiesAlong (Copies m.new.thread) where
  queryOld hcommand := copies_onOld (m.old.reads_query hcommand)
  queryNew hcommand := copies_onNew (m.new.reads_query hcommand)
  write := m.copies_write
  account := copies_account

/-! ### The bracket around the copy -/

theorem run_onOld {x : SessionM σ α} {y : Migration σ} {r : Except RunError α}
    {s : Session σ} (h : x.run y.old = (r, s)) : (onOld x).run y = (r, { y with old := s }) := by
  show ((x.run y.old).1, { y with old := (x.run y.old).2 }) = _
  rw [h]

theorem run_onNew {x : SessionM σ α} {y : Migration σ} {r : Except RunError α}
    {s : Session σ} (h : x.run y.new = (r, s)) : (onNew x).run y = (r, { y with new := s }) := by
  show ((x.run y.new).1, { y with new := (x.run y.new).2 }) = _
  rw [h]

/-- What is not marked is never committed. -/
theorem commit_failed_of_unmarked {c : Caller σ} {store store' : σ}
    {r : Except RunError Outcome} {cs : List Entry} (h : c.Closing store false r store' cs) :
    ∀ e ∈ cs, e.sql = "COMMIT" → e.succeeded = false := by
  cases h with
  | rolledBack => simp [Caller.entry]

/-- The BEGIN of a migration, as the engine answered it. -/
def beginEntry (m : Migrator σ) (succeeded : Bool) : Entry :=
  ⟨m.new.thread, .batch, "BEGIN EXCLUSIVE", succeeded⟩

/-- The ways in which copying everything comes out. -/
inductive CopiedAll (y : Migration σ) : Except RunError Unit → Migration σ → Prop where
  | refused {e : RunError} {z : Migration σ} : z.old = y.old → z.new.transaction = none →
      z.new.log = y.new.log ++ [m.beginEntry false] → CopiedAll y (.error e) z
  | undone {e : RunError} {z : Migration σ} {ws cs : List Entry} :
      Sends Entry.Reads y.old z.old → z.new.transaction = none →
      z.new.log = y.new.log ++ (m.beginEntry true :: ws ++ cs) → (∀ w ∈ ws, w.Works) →
      Ending cs → (∀ e ∈ cs, e.sql = "COMMIT" → e.succeeded = false) → CopiedAll y (.error e) z
  | committed {z : Migration σ} {ws : List Entry} :
      Sends Entry.Reads y.old z.old → z.new.transaction = none →
      z.new.log = y.new.log ++ (m.beginEntry true :: ws ++ [⟨m.new.thread, .batch, "COMMIT", true⟩]) →
      (∀ w ∈ ws, w.Works) → z.report.status = .migrated → z.report.committed = true →
      (∃ store, m.new.engine.batch "COMMIT" store = (.ok (), z.new.store)) →
      CopiedAll y (.ok ()) z

/-- An idle session is left idle, or owned by the thread that copies. -/
theorem enter_cases {y : Migration σ} (hidle : y.new.transaction = none) :
    (∃ e z, (onNew (m.new.begin .exclusive)).run y = (.error e, z) ∧ z.old = y.old ∧
      z.new.transaction = none ∧ z.new.log = y.new.log ++ [m.beginEntry false]) ∨
    ∃ z, (onNew (m.new.begin .exclusive)).run y = (.ok (), z) ∧ z.old = y.old ∧
      z.new.transaction = some ⟨m.new.thread, 0, false⟩ ∧
      z.new.log = y.new.log ++ [m.beginEntry true] := by
  rcases m.new.run_begin_of_idle .exclusive hidle with ⟨e, store, -, hbegin⟩ | ⟨store, -, hbegin⟩
  · exact .inl ⟨_, _, run_onNew hbegin, rfl, hidle, rfl⟩
  · exact .inr ⟨_, run_onNew hbegin, rfl, rfl, rfl⟩

/-- The mark is made if the body succeeds. -/
theorem run_inside {y z : Migration σ} {body : MigrationM σ α} {r : Except RunError α}
    (hbody : body.run y = (r, z)) (ht : z.new.transaction = some ⟨m.new.thread, 0, false⟩) :
    (do let a ← body; onNew m.new.setSuccessful; return a : MigrationM σ α).run y =
      (r, { z with new := { z.new with transaction := some ⟨m.new.thread, 0, r.isOk⟩ } }) := by
  rw [run_bind, hbody]
  cases r with
  | error e =>
    have hz : z = { z with new := { z.new with
        transaction := some ⟨m.new.thread, 0, false⟩ } } := by rw [← ht]
    exact congrArg (Prod.mk _) hz
  | ok a =>
    show (onNew m.new.setSuccessful >>= fun _ => pure a).run z = _
    rw [run_bind, run_onNew (m.new.run_setSuccessful_of_owner ht rfl)]
    rfl

theorem copyAll_cases (oldTables newTables : List TableSnapshot) {y : Migration σ}
    (hidle : y.new.transaction = none) :
    m.CopiedAll y ((m.copyAll oldTables newTables).run y).1
      ((m.copyAll oldTables newTables).run y).2 := by
  rw [copyAll, run_bind]
  rcases m.enter_cases hidle with ⟨e, z, henter, hold, hz, hlog⟩ | ⟨y₁, henter, hold, ht, hlog⟩
  · rw [run_bracket_of_error henter]
    exact .refused hold hz hlog
  · have hcopies := m.copiesAlong.copyTables newTables oldTables y₁
    cases hbody : (m.copyTables newTables oldTables).run y₁ with
    | mk r y₂ =>
      rw [hbody] at hcopies
      have hread : Sends Entry.Reads y.old y₂.old := hold ▸ hcopies.old
      obtain ⟨ht₂, ws, hlog₂, hws⟩ := hcopies.new (by rw [Session.owner?, ht]; rfl)
      obtain ⟨o, store, cs, hfinish, hclosing⟩ :=
        m.new.run_finish_of_outermost (s := { y₂.new with
          transaction := some ⟨m.new.thread, 0, r.isOk⟩ }) rfl rfl rfl
      have hlogs : y₂.new.log ++ cs = y.new.log ++ (m.beginEntry true :: ws ++ cs) := by
        rw [hlog₂, hlog]
        simp
      rw [run_bracket_of_ok henter (m.run_inside hbody (ht₂.trans ht)) (run_onNew hfinish)]
      cases r with
      | error e =>
        have hfailed := commit_failed_of_unmarked hclosing
        exact .undone hread rfl hlogs hws hclosing.ending hfailed
      | ok u =>
        cases hclosing with
        | committed hcommit => exact .committed hread rfl hlogs hws rfl rfl ⟨_, hcommit⟩
        | commitFailed =>
          refine .undone hread rfl hlogs hws (.commitFailed rfl rfl rfl) ?_
          simp [Caller.entry, Except.isOk, Except.toBool]

/-! ### A whole migration -/

/-- Both sessions are only read. -/
structure Looks (x y : Migration σ) : Prop where
  old : Sends Entry.Reads x.old y.old
  new : Sends Entry.Reads x.new y.new

instance : Course (Looks : Migration σ → Migration σ → Prop) where
  refl x := ⟨Course.refl x.old, Course.refl x.new⟩
  trans h h' := ⟨Course.trans h.old h'.old, Course.trans h.new h'.new⟩

theorem looks_onOld {x : SessionM σ α} (h : Follows (Sends Entry.Reads) x) :
    Follows Looks (onOld x) :=
  fun y => ⟨h y.old, Course.refl y.new⟩

theorem looks_onNew {x : SessionM σ α} (h : Follows (Sends Entry.Reads) x) :
    Follows Looks (onNew x) :=
  fun y => ⟨Course.refl y.old, h y.new⟩

/-- The ways in which a migration comes out. -/
inductive Ran (x : Migration σ) : Except RunError Unit → Migration σ → Prop where
  /-- It failed before it began to copy. -/
  | failed {e : RunError} {y : Migration σ} : Looks x y → Ran x (.error e) y
  | upToDate {y : Migration σ} {ok ok' : Bool} :
      y.old.log = x.old.log ++ [m.old.versionQuery ok] →
      y.new.log = x.new.log ++ [m.new.versionQuery ok'] →
      y.new.transaction = x.new.transaction → y.report.status = .upToDate →
      y.report.committed = false → Ran x (.ok ()) y
  | copied {y z : Migration σ} {r : Except RunError Unit} : Looks x y → m.CopiedAll y r z → Ran x r z

/-- What a migration does when the new database is newer. -/
def lookAndCopy (m : Migrator σ) : MigrationM σ Unit := do
  let oldTables ← onOld m.old.snapshotTables
  let newTables ← onNew m.new.snapshotTables
  m.copyAll oldTables newTables

theorem lookAndCopy_cases {x y : Migration σ} (hidle : x.new.transaction = none)
    (hlooks : Looks x y) : m.Ran x (m.lookAndCopy.run y).1 (m.lookAndCopy.run y).2 := by
  have hold := looks_onOld m.old.reads_snapshotTables y
  rw [lookAndCopy, run_bind]
  cases hr : (onOld m.old.snapshotTables).run y with
  | mk r y₁ =>
    rw [hr] at hold
    have hlooks₁ := Course.trans hlooks hold
    cases r with
    | error e => exact .failed hlooks₁
    | ok oldTables =>
      have hnew := looks_onNew m.new.reads_snapshotTables y₁
      dsimp only
      rw [run_bind]
      cases hr' : (onNew m.new.snapshotTables).run y₁ with
      | mk r' y₂ =>
        rw [hr'] at hnew
        have hlooks₂ := Course.trans hlooks₁ hnew
        cases r' with
        | error e => exact .failed hlooks₂
        | ok newTables =>
          have hidle₂ : y₂.new.transaction = none := hlooks₂.new.transaction.trans hidle
          exact .copied hlooks₂ (m.copyAll_cases oldTables newTables hidle₂)

/-- A migration asks both databases for their versions, and copies if the new one's is
higher. -/
theorem run_steps (x : Migration σ) :
    m.steps.run x =
      match m.old.foundVersion x.old with
      | .error e => (.error e, { x with old := m.old.asked x.old })
      | .ok oldVersion =>
        match m.new.foundVersion x.new with
        | .error e =>
          (.error e, { x with old := m.old.asked x.old, new := m.new.asked x.new })
        | .ok newVersion =>
          let y : Migration σ :=
            ⟨m.old.asked x.old, m.new.asked x.new, .start oldVersion newVersion⟩
          if oldVersion < newVersion then m.lookAndCopy.run y else (.ok (), y) := by
  rw [steps, run_bind, run_onOld (m.old.run_userVersion x.old)]
  cases m.old.foundVersion x.old with
  | error e => rfl
  | ok oldVersion =>
    have hnew := run_onNew (y := { x with old := m.old.asked x.old })
      (m.new.run_userVersion x.new)
    dsimp only
    rw [run_bind, hnew]
    cases m.new.foundVersion x.new with
    | error e => rfl
    | ok newVersion =>
      dsimp only
      split
      · rfl
      · rfl

theorem steps_cases {x : Migration σ} (hidle : x.new.transaction = none) :
    m.Ran x (m.steps.run x).1 (m.steps.run x).2 := by
  have hold := m.old.reads_asked x.old
  have hnew := m.new.reads_asked x.new
  rw [run_steps]
  cases m.old.foundVersion x.old with
  | error e => exact .failed ⟨hold, Course.refl x.new⟩
  | ok oldVersion =>
    cases m.new.foundVersion x.new with
    | error e => exact .failed ⟨hold, hnew⟩
    | ok newVersion =>
      dsimp only
      split
      · exact m.lookAndCopy_cases hidle ⟨hold, hnew⟩
      · exact .upToDate rfl rfl rfl rfl rfl

/-- The result of a migration is that of its steps, with the account. -/
theorem run_eq (old new : Session σ) :
    m.run.run (old, new) =
      let p := m.steps.run ⟨old, new, .start 0 0⟩
      (p.1.map fun _ => p.2.report, p.2.old, p.2.new) := rfl

/-- A result that says so was committed: by a COMMIT that succeeded, and nothing came
behind it. -/
theorem commit_of_committed {old new : Session σ} (hidle : new.transaction = none)
    {report : MigrationReport} (h : (m.run.run (old, new)).1 = .ok report)
    (hcommitted : report.committed = true) :
    ∃ store, m.new.engine.batch "COMMIT" store = (.ok (), (m.run.run (old, new)).2.2.store) := by
  have hran := m.steps_cases (x := ⟨old, new, .start 0 0⟩) hidle
  rw [run_eq] at h ⊢
  generalize m.steps.run ⟨old, new, .start 0 0⟩ = p at hran h ⊢
  obtain ⟨r, y⟩ := p
  cases hran with
  | failed => cases h
  | upToDate _ _ _ _ hnot =>
    cases h
    cases hnot.symm.trans hcommitted
  | copied _ hcopied =>
    cases hcopied with
    | refused => cases h
    | undone => cases h
    | committed _ _ _ _ _ _ hcommit => exact hcommit

/-- Databases that are found to have one version are not copied. -/
theorem run_of_sameVersion {old new : Session σ}
    (h : m.old.foundVersion old = m.new.foundVersion new) :
    (∀ report, (m.run.run (old, new)).1 = .ok report → report.committed = false) ∧
      ((m.run.run (old, new)).2.2 = new ∨ (m.run.run (old, new)).2.2 = m.new.asked new) := by
  rw [run_eq, run_steps, h]
  cases m.new.foundVersion new with
  | error e => exact ⟨nofun, .inl rfl⟩
  | ok version =>
    dsimp only
    rw [if_neg Int64.lt_irrefl]
    refine ⟨fun report hreport => ?_, .inr rfl⟩
    cases hreport
    rfl

/-- The statements to the new database: queries, and behind them at most one block, which
a BEGIN EXCLUSIVE opens. -/
inductive OneBlock : List Entry → Prop where
  | unopened {qs : List Entry} : (∀ q ∈ qs, q.Reads) → OneBlock qs
  | refused {qs : List Entry} {b : Entry} : (∀ q ∈ qs, q.Reads) → b.sql = "BEGIN EXCLUSIVE" →
      b.succeeded = false → OneBlock (qs ++ [b])
  | closed {qs ws cs : List Entry} {b : Entry} : (∀ q ∈ qs, q.Reads) → b.sql = "BEGIN EXCLUSIVE" →
      b.succeeded = true → (∀ w ∈ ws, w.Works) → Ending cs → OneBlock (qs ++ (b :: ws ++ cs))

/-- What was sent to both databases, by the result of the migration. -/
structure AllOrNothing (m : Migrator σ) (result : Except RunError MigrationReport)
    (toOld toNew : List Entry) : Prop where
  old : ∀ e ∈ toOld, e.Reads
  new : OneBlock toNew
  /-- Rows were copied: the last statement to the new database committed them. -/
  migrated : ∀ {report}, result = .ok report → report.status = .migrated →
    report.committed = true ∧
      ∃ e, toNew.getLast? = some e ∧ e.sql = "COMMIT" ∧ e.succeeded = true
  /-- Nothing was to be copied: both databases were asked for their versions. -/
  upToDate : ∀ {report}, result = .ok report → report.status = .upToDate →
    ∃ ok ok', toOld = [m.old.versionQuery ok] ∧ toNew = [m.new.versionQuery ok']
  failed : ∀ {error}, result = .error error →
    ∀ e ∈ toNew, e.sql = "COMMIT" → e.succeeded = false

/-- What is no control statement is no COMMIT. -/
theorem sql_ne_commit {e : Entry} (h : e.isControl = false) : e.sql ≠ "COMMIT" := by
  intro hsql
  rw [Entry.isControl, hsql] at h
  exact absurd h (by decide)

theorem reads_append {qs qs' : List Entry} (h : ∀ q ∈ qs, q.Reads) (h' : ∀ q ∈ qs', q.Reads) :
    ∀ q ∈ qs ++ qs', q.Reads :=
  fun q hq => (List.mem_append.mp hq).elim (h q) (h' q)

/-- Copying everything, behind the queries `qs` and `ns` to the databases. -/
theorem CopiedAll.allOrNothing {m : Migrator σ} {y z : Migration σ} {r : Except RunError Unit}
    {qs ns : List Entry} (h : m.CopiedAll y r z) (hqs : ∀ q ∈ qs, q.Reads)
    (hns : ∀ q ∈ ns, q.Reads) :
    ∃ qs' ns', z.old.log = y.old.log ++ qs' ∧ z.new.log = y.new.log ++ ns' ∧
      z.new.transaction = none ∧
      m.AllOrNothing (r.map fun _ => z.report) (qs ++ qs') (ns ++ ns') := by
  cases h with
  | refused hold hidle hlog =>
    refine ⟨[], [m.beginEntry false], by simp [hold], hlog, hidle, ?_⟩
    refine ⟨by simpa using hqs, .refused hns rfl rfl, nofun, nofun, fun _ e he hsql => ?_⟩
    rcases List.mem_append.mp he with he | he
    · exact absurd hsql (sql_ne_commit (hns e he).plain)
    · cases List.mem_singleton.mp he
      rfl
  | @undone e z ws cs hold hidle hlog hws hcs hfailed =>
    obtain ⟨_, qs', hlog', hqs'⟩ := hold
    refine ⟨qs', m.beginEntry true :: ws ++ cs, hlog', hlog, hidle, ?_⟩
    refine ⟨reads_append hqs hqs', .closed hns rfl rfl hws hcs, nofun, nofun, ?_⟩
    intro _ _ e he hsql
    simp only [List.mem_append, List.mem_cons] at he
    rcases he with he | (rfl | he) | he
    · exact absurd hsql (sql_ne_commit (hns e he).plain)
    · exact absurd hsql (by simp [beginEntry])
    · exact absurd hsql (sql_ne_commit (hws e he).plain)
    · exact hfailed e he hsql
  | committed hold hidle hlog hws hstatus hcommitted _ =>
    obtain ⟨_, qs', hlog', hqs'⟩ := hold
    refine ⟨qs', _, hlog', hlog, hidle, ?_⟩
    refine ⟨reads_append hqs hqs', .closed hns rfl rfl hws (.committed rfl rfl), ?_, ?_, nofun⟩
    · intro report hreport _
      cases hreport
      refine ⟨hcommitted, ⟨m.new.thread, .batch, "COMMIT", true⟩, ?_, rfl, rfl⟩
      rw [← List.append_assoc, List.getLast?_concat]
    · intro report hreport hup
      cases hreport
      cases hstatus.symm.trans hup

theorem Ran.allOrNothing {m : Migrator σ} {x y : Migration σ} {r : Except RunError Unit}
    (h : m.Ran x r y) (hidle : x.new.transaction = none) :
    ∃ qs ns, y.old.log = x.old.log ++ qs ∧ y.new.log = x.new.log ++ ns ∧
      y.new.transaction = none ∧ m.AllOrNothing (r.map fun _ => y.report) qs ns := by
  cases h with
  | failed hlooks =>
    obtain ⟨⟨_, qs, hlog, hqs⟩, ht, ns, hlog', hns⟩ := hlooks
    refine ⟨qs, ns, hlog, hlog', ht.trans hidle, hqs, .unopened hns, nofun, nofun, ?_⟩
    exact fun _ e he hsql => absurd hsql (sql_ne_commit (hns e he).plain)
  | @upToDate y ok ok' hlog hlog' ht hstatus _ =>
    have hqs := m.old.reads_versionQuery ok
    have hns := m.new.reads_versionQuery ok'
    refine ⟨_, _, hlog, hlog', ht.trans hidle, by simpa using hqs, .unopened (by simpa using hns),
      ?_, fun _ _ => ⟨ok, ok', rfl, rfl⟩, nofun⟩
    intro report hreport hmigrated
    cases hreport
    cases hstatus.symm.trans hmigrated
  | copied hlooks hcopied =>
    obtain ⟨⟨_, qs, hlog, hqs⟩, ht, ns, hlog', hns⟩ := hlooks
    obtain ⟨qs', ns', hold, hnew, hidle', hall⟩ := hcopied.allOrNothing hqs hns
    refine ⟨_, _, ?_, ?_, hidle', hall⟩
    · rw [hold, hlog, List.append_assoc]
    · rw [hnew, hlog', List.append_assoc]

/-- However the engines answer, and whatever the policy: the old database is only read, the
new one is written only between a BEGIN EXCLUSIVE and its ending, rows stay there exactly
if the result says so, and no transaction is left open. -/
theorem run_allOrNothing (m : Migrator σ) (old new : Session σ) (hidle : new.transaction = none) :
    ∃ toOld toNew,
      (m.run.run (old, new)).2.1.log = old.log ++ toOld ∧
      (m.run.run (old, new)).2.2.log = new.log ++ toNew ∧
      (m.run.run (old, new)).2.2.transaction = none ∧
      m.AllOrNothing (m.run.run (old, new)).1 toOld toNew :=
  (m.steps_cases (x := ⟨old, new, .start 0 0⟩) hidle).allOrNothing hidle

/-- Databases that both have a table, which holds a row in the old one; the new one takes
no rows. -/
def answers (version rowCount : Int64) : List Rule :=
  let reply (sql : String) (columns : List String) (rows : List (List Value)) : Rule :=
    { Rule.fallback with sql := some sql, rows := ⟨columns, rows⟩ }
  [reply (Sql.Command.text .readVersion) ["user_version"] [[.integer version]],
    reply (Sql.Command.text .tableNames) ["name"] [[.text "t"]],
    reply (Sql.Command.text (.columns "t")) ["a"] [],
    reply (Sql.Command.text (.countRows "t")) ["count"] [[.integer rowCount]],
    reply (Sql.Command.text (.copyRows "t" ["a"])) ["_migrate_rowid_", "a"]
      [[.integer 1, .text "x"]],
    { Rule.fallback with start := some "INSERT", failure := some (.database "disk full") }]

/-- A migration between such databases, without a policy. -/
def refusedInsert : Except RunError MigrationReport × Session (List Rule) × Session (List Rule) :=
  let caller : Caller (List Rule) := ⟨Script.engine, .immediate, "main"⟩
  (Migrator.mk caller caller none).run.run (.start (answers 1 1), .start (answers 2 0))

theorem run_allOrNothing_refusedInsert :
    (Session.start (answers 2 0)).transaction = none ∧ refusedInsert.1.isOk = false ∧
      refusedInsert.2.2.transaction = none ∧
      (∀ e ∈ refusedInsert.2.2.log, e.sql = "COMMIT" → e.succeeded = false) ∧
      refusedInsert.2.2.log.getLast? = some ⟨"main", .batch, "ROLLBACK", true⟩ := by
  have hidle : (Session.start (answers 2 0)).transaction = none := rfl
  have hfailed : refusedInsert.1.isOk = false := by decide +kernel
  have hlast : refusedInsert.2.2.log.getLast? = some ⟨"main", .batch, "ROLLBACK", true⟩ := by
    decide +kernel
  obtain ⟨toOld, toNew, _, hnew, hidle', hall⟩ := run_allOrNothing _ _ _ hidle
  refine ⟨hidle, hfailed, hidle', ?_, hlast⟩
  cases hr : refusedInsert.1 with
  | ok report => simp [hr, Except.isOk, Except.toBool] at hfailed
  | error e =>
    rw [refusedInsert, hnew]
    exact hall.failed hr

end SqlMaps.Migrator
