import SqlMaps.Proofs.Migration.Permitted
import SqlMaps.Proofs.Migration.Tally

/-! Every row and every table of a migration is accounted for.

`Recorded` says of a stretch of a migration that the account has been changed by a tally and by
nothing else, and that both sessions have heard what is in it. Stretches are put together
(`Recorded.trans`), row by row and table by table, and the account of a whole migration is then
compared with what the sessions have sent and heard (`run_accounts`). -/
namespace SqlMaps.Migrator
open Attempt
variable {σ α : Type} {m : Migrator σ} {y z w : Migration σ}

/-! ### Stretches of a migration -/

/-- From one moment of a migration to another, the account has been changed by what became of
rows and tables, which both sessions have heard. -/
structure Recorded (m : Migrator σ) (y : Migration σ) (t : Tally) (z : Migration σ) : Prop where
  old : ∃ xs, m.old.Heard y.old xs z.old ∧ xs.filter Exchange.isCopy = t.copies
  new : ∃ xs, m.new.Heard y.new xs z.new ∧ xs.filter Exchange.isWrite = t.fates.reduceOption
  report : z.report = y.report.enter t

theorem recorded_nothing (y : Migration σ) : m.Recorded y {} y :=
  ⟨⟨[], Caller.heard_nil rfl rfl, rfl⟩, ⟨[], Caller.heard_nil rfl rfl, rfl⟩,
    by simp [MigrationReport.enter]⟩

theorem Recorded.trans {a b : Tally} (h : m.Recorded y a z) (h' : m.Recorded z b w) :
    m.Recorded y (a ++ b) w := by
  obtain ⟨⟨xs, hold, hcopies⟩, ⟨us, hnew, hwrites⟩, hreport⟩ := h
  obtain ⟨⟨xs', hold', hcopies'⟩, ⟨us', hnew', hwrites'⟩, hreport'⟩ := h'
  refine ⟨⟨xs ++ xs', hold.trans hold', ?_⟩, ⟨us ++ us', hnew.trans hnew', ?_⟩, ?_⟩
  · rw [List.filter_append, hcopies, hcopies', Tally.copies_append]
  · rw [List.filter_append, hwrites, hwrites', Tally.fates_append, List.reduceOption_append]
  · rw [hreport', hreport, MigrationReport.enter_append]

/-- An entry in the account that goes with no statement. -/
theorem recorded_account {f : MigrationReport → MigrationReport} {t : Tally} {u : Unit}
    (hf : f y.report = y.report.enter t) (hcopies : t.copies = [])
    (hfates : t.fates.reduceOption = []) (h : (account f).run y = (.ok u, z)) :
    m.Recorded y t z := by
  cases h
  exact ⟨⟨[], Caller.heard_nil rfl rfl, hcopies.symm⟩, ⟨[], Caller.heard_nil rfl rfl, hfates.symm⟩,
    hf⟩

/-! ### Rows -/

theorem recorded_countSkipped {u : Unit}
    (h : (countSkipped : MigrationM σ Unit).run y = (.ok u, z)) :
    m.Recorded y { fates := [none] } z :=
  recorded_account (by simp [MigrationReport.enter, wasAdded, wasReplaced, wasLeft]) rfl rfl h

/-- A write that succeeds inside the transaction is all that is heard. -/
theorem heard_write {command : Sql.Command} {n : Nat} (ho : y.new.owner? = some m.new.thread)
    (h : (m.write command).run y = (.ok n, z)) :
    z.old = y.old ∧ z.report = y.report ∧
      m.new.Heard y.new [⟨.execute, command.text, .changed n⟩] z.new := by
  obtain ⟨t, ht, howner⟩ := Option.map_eq_some_iff.1 ho
  rw [write, run_onNew (m.new.run_execute_of_owner command.text ht howner)] at h
  cases he : m.new.engine.execute command.text y.new.store with
  | mk r store =>
    rw [he] at h
    cases h
    exact ⟨rfl, rfl, [_], rfl, by simp [Engine.replay, Engine.answer, Caller.entry, he,
      Answer.ofResult]⟩

/-- A row that causes a write is entered by it. -/
theorem recorded_written {command : Sql.Command} {n : Nat} {u : Unit}
    {f : MigrationReport → MigrationReport} (ho : y.new.owner? = some m.new.thread)
    (hwrite : command.isWrite = true) (h : (m.write command).run y = (.ok n, z))
    (hf : f y.report = y.report.enter { fates := [some ⟨.execute, command.text, .changed n⟩] })
    (hcount : (account f).run z = (.ok u, w)) :
    m.Recorded y { fates := [some ⟨.execute, command.text, .changed n⟩] } w := by
  obtain ⟨hold, hreport, hheard⟩ := heard_write ho h
  cases hcount
  refine ⟨⟨[], Caller.heard_nil (by rw [hold]) (by rw [hold]), rfl⟩, ⟨_, hheard, ?_⟩, ?_⟩
  · have hx : Exchange.isWrite ⟨.execute, command.text, .changed n⟩ = true := by
      rw [Exchange.isWrite, Exchange.isInsert_text, Exchange.isUpdate_text]
      cases command <;> first | rfl | cases hwrite
    simp [hx]
  · exact (congrArg f hreport).trans hf

section Rows
variable {policy : RetentionPolicy} {table : String} {id : Int64} {row : Record} {u : Unit}

theorem enter_insert (r : MigrationReport) (table : String) (columns : List String)
    (values : List Value) (n : Nat) :
    { r with inserted := r.inserted + 1 } = r.enter { fates :=
      [some ⟨.execute, (Sql.Command.insert table columns values).text, .changed n⟩] } := by
  simp [MigrationReport.enter, wasAdded, wasReplaced, wasLeft, Exchange.updatesRow,
    Exchange.updatesNothing, Sql.Command.opening]

/-- A row written over another is counted by whether there was one. -/
theorem enter_update (r : MigrationReport) (table : String) (assignments : List (String × Value))
    (id : Int64) (n : Nat) :
    r.enter { fates :=
      [some ⟨.execute, (Sql.Command.update table assignments id).text, .changed n⟩] } =
      if 0 < n then { r with updated := r.updated + 1 }
      else { r with skipped := r.skipped + 1 } := by
  by_cases hn : 0 < n <;>
    simp [MigrationReport.enter, wasAdded, wasReplaced, wasLeft, Exchange.updatesRow,
      Exchange.updatesNothing, Exchange.changesRow, Sql.Command.opening, hn]

theorem recorded_insertRow (ho : y.new.owner? = some m.new.thread)
    (h : (m.insertRow policy table row).run y = (.ok u, z)) :
    ∃ fate, m.Recorded y { fates := [fate] } z := by
  unfold insertRow at h
  dsimp only at h
  split at h
  · exact ⟨_, recorded_countSkipped h⟩
  · obtain ⟨_, y₁, hdiscard, hcount⟩ := run_bind_eq_ok h
    obtain ⟨n, y₂, hwrite, hpure⟩ := run_bind_eq_ok (f := fun _ => pure ()) hdiscard
    cases hpure
    exact ⟨_, recorded_written ho rfl hwrite (enter_insert ..) hcount⟩

theorem recorded_updateRow (ho : y.new.owner? = some m.new.thread)
    (h : (m.updateRow policy table id row).run y = (.ok u, z)) :
    ∃ fate, m.Recorded y { fates := [fate] } z := by
  rw [updateRow, run_bind, run_get] at h
  dsimp only at h
  split at h
  · exact ⟨_, recorded_countSkipped h⟩
  · obtain ⟨n, y₁, hwrite, hcount⟩ := run_bind_eq_ok h
    split at hcount
    · rename_i hn
      exact ⟨_, recorded_written ho rfl hwrite (by rw [enter_update, if_pos hn]) hcount⟩
    · rename_i hn
      exact ⟨_, recorded_written ho rfl hwrite (by rw [enter_update, if_neg hn]) hcount⟩

/-- A row causes one statement at most, and is counted by it. -/
theorem recorded_placeRow {existing : List Int64} (ho : y.new.owner? = some m.new.thread)
    (h : (m.placeRow policy table existing row).run y = (.ok u, z)) :
    ∃ fate, m.Recorded y { fates := [fate] } z := by
  obtain ⟨id, y₁, hid, hrest⟩ := run_bind_eq_ok h
  obtain ⟨-, rfl⟩ := Prod.mk.inj hid
  rw [run_bind, run_get] at hrest
  dsimp only at hrest
  split at hrest
  · exact ⟨_, recorded_countSkipped hrest⟩
  · exact recorded_updateRow ho hrest
  · split at hrest
    · exact recorded_updateRow ho hrest
    · exact recorded_insertRow ho hrest

/-- The thread keeps the transaction while it copies. -/
theorem owner?_of_copies {x : MigrationM σ α} {r : Except RunError α}
    (hx : Follows (Copies m.new.thread) x) (ho : y.new.owner? = some m.new.thread)
    (h : x.run y = (r, z)) : z.new.owner? = some m.new.thread := by
  have hcopies := (hx y).new ho
  rw [h] at hcopies
  exact (owner?_of_sends hcopies).trans ho

theorem recorded_placeRows {existing : List Int64} (rows : List Record) {y : Migration σ}
    (ho : y.new.owner? = some m.new.thread)
    (h : (m.placeRows policy table existing rows).run y = (.ok u, z)) :
    ∃ fates, fates.length = rows.length ∧ m.Recorded y { fates } z := by
  induction rows generalizing y with
  | nil =>
    cases h
    exact ⟨[], rfl, recorded_nothing _⟩
  | cons row rows ih =>
    obtain ⟨_, y₁, hrow, hrows⟩ := run_bind_eq_ok h
    obtain ⟨fate, hfate⟩ := recorded_placeRow ho hrow
    have ho₁ := owner?_of_copies (m.copiesAlong.placeRow policy table existing row) ho hrow
    obtain ⟨fates, hlength, hfates⟩ := ih ho₁ hrows
    exact ⟨fate :: fates, by simp [hlength], hfate.trans hfates⟩

theorem recorded_copyRows {columns : List String} (rows : List (List Value)) {y : Migration σ}
    (ho : y.new.owner? = some m.new.thread)
    (h : (m.copyRows table columns rows).run y = (.ok u, z)) :
    ∃ fates, fates.length = rows.length ∧ m.Recorded y { fates } z := by
  induction rows generalizing y with
  | nil =>
    cases h
    exact ⟨[], rfl, recorded_nothing _⟩
  | cons row rows ih =>
    obtain ⟨_, y₁, hdiscard, hrest⟩ := run_bind_eq_ok h
    obtain ⟨n, y₂, hwrite, hpure⟩ := run_bind_eq_ok (f := fun _ => pure ()) hdiscard
    cases hpure
    obtain ⟨_, y₃, hcount, hrows⟩ := run_bind_eq_ok hrest
    have hrow := recorded_written ho rfl hwrite (enter_insert ..) hcount
    have ho₁ := owner?_of_copies (m.copies_write rfl) ho hwrite
    have ho₃ := owner?_of_copies (copies_account _) ho₁ hcount
    obtain ⟨fates, hlength, hfates⟩ := ih ho₃ hrows
    exact ⟨_ :: fates, by simp [hlength], hrow.trans hfates⟩

end Rows

/-! ### Tables -/

/-- What the new session hears besides writes is not entered. -/
theorem recorded_onNew {x : SessionM σ α} {a : α} {xs : List Exchange}
    (hheard : m.new.Heard y.new xs (x.run y.new).2) (hxs : ∀ x ∈ xs, x.isWrite = false)
    (h : (onNew x).run y = (.ok a, z)) : m.Recorded y {} z := by
  cases hx : x.run y.new with
  | mk r s =>
    rw [hx] at hheard
    rw [run_onNew hx] at h
    cases h
    refine ⟨⟨[], Caller.heard_nil rfl rfl, rfl⟩, ⟨xs, hheard, ?_⟩, by simp [MigrationReport.enter]⟩
    exact List.filter_eq_nil_iff.2 fun x hx => by simp [hxs x hx]

/-- What is sent that does not belong to copying is not entered. -/
theorem recorded_aside {x : SessionM σ α} {a : α} (htalks : Follows m.new.Talks x)
    (hlogs : Follows (Logs fun e => Sql.Aside e.sql) x) (h : (onNew x).run y = (.ok a, z)) :
    m.Recorded y {} z := by
  obtain ⟨xs, hheard⟩ := htalks y.new
  exact recorded_onNew hheard
    (fun x hx => Exchange.isWrite_of_aside (hheard.forall_sql (hlogs y.new) x hx)) h

theorem recorded_asideOld {x : SessionM σ α} {a : α} (htalks : Follows m.old.Talks x)
    (hlogs : Follows (Logs fun e => Sql.Aside e.sql) x) (h : (onOld x).run y = (.ok a, z)) :
    m.Recorded y {} z := by
  obtain ⟨xs, hheard⟩ := htalks y.old
  have haside := hheard.forall_sql (hlogs y.old)
  cases hx : x.run y.old with
  | mk r s =>
    rw [hx] at hheard
    rw [run_onOld hx] at h
    cases h
    refine ⟨⟨xs, hheard, ?_⟩, ⟨[], Caller.heard_nil rfl rfl, rfl⟩, by simp [MigrationReport.enter]⟩
    exact List.filter_eq_nil_iff.2 fun x hx => by simp [Exchange.isCopy_of_aside (haside x hx)]

theorem recorded_rowIds {table : String} {ids : List Int64}
    (h : (m.rowIds table).run y = (.ok ids, z)) : m.Recorded y {} z := by
  obtain ⟨rows, y₁, hquery, hids⟩ := run_bind_eq_ok h
  obtain ⟨-, rfl⟩ := Prod.mk.inj hids
  refine recorded_onNew (m.new.heard_query _ y.new) (List.forall_mem_singleton.2 ?_) hquery
  simp [Exchange.isWrite, Sql.Command.opening]

/-- The query for the rows of a table, if it is copied: it is to be, between the versions, and both
databases have it, with columns in common. -/
def copyQuery? (m : Migrator σ) (newTables : List TableSnapshot) (v v' : Int64)
    (old : TableSnapshot) : Option Sql.Command :=
  (newTables.reverse.find? (·.name = old.name)).bind fun new =>
    if m.shouldCopy (.start v v') old new && !(old.sharedColumns new).isEmpty then
      some (.copyRows old.name (old.sharedColumns new))
    else none

/-- The answer to the query for the rows of a table. -/
theorem recorded_queryRows {table : String} {columns : List String} {rows : RowSet}
    (h : (onOld (m.old.query (Sql.Command.copyRows table columns).text)).run y = (.ok rows, z)) :
    z.new = y.new ∧ m.Recorded y
      { copies := [⟨.query, (Sql.Command.copyRows table columns).text, .rows rows⟩] } z := by
  have hheard := m.old.heard_query (Sql.Command.copyRows table columns).text y.old
  cases hquery : (m.old.query (Sql.Command.copyRows table columns).text).run y.old with
  | mk r s =>
    rw [hquery] at hheard
    rw [run_onOld hquery] at h
    cases h
    exact ⟨rfl, ⟨_, hheard, by simp [Sql.Command.opening, Answer.ofResult]⟩,
      ⟨[], Caller.heard_nil rfl rfl, rfl⟩, by simp [MigrationReport.enter]⟩

/-- The rows of a table, each entered by what became of it. -/
theorem recorded_copyTable {old new : TableSnapshot} {copied : Bool}
    (ho : y.new.owner? = some m.new.thread) (h : (m.copyTable old new).run y = (.ok copied, z)) :
    (old.sharedColumns new = [] ∧ copied = false ∧ m.Recorded y {} z) ∨
      (old.sharedColumns new ≠ [] ∧ copied = true ∧ ∃ rows fates,
        fates.length = rows.rows.length ∧ m.Recorded y
          { copies := [⟨.query, (Sql.Command.copyRows old.name (old.sharedColumns new)).text,
              .rows rows⟩], fates } z) := by
  unfold copyTable at h
  dsimp only at h
  split at h
  · rename_i hempty
    cases h
    exact .inl ⟨List.isEmpty_iff.1 hempty, rfl, recorded_nothing _⟩
  · rename_i hshared
    obtain ⟨rows, y₁, hquery, hrest⟩ := run_bind_eq_ok h
    obtain ⟨hnew, hcopy⟩ := recorded_queryRows hquery
    rw [← hnew] at ho
    have hplaced : copied = true ∧ ∃ fates, fates.length = rows.rows.length ∧
        m.Recorded y₁ { fates } z := by
      cases hpolicy : m.policy with
      | none =>
        rw [hpolicy] at hrest
        obtain ⟨_, y₂, hrows, hpure⟩ := run_bind_eq_ok hrest
        cases hpure
        exact ⟨rfl, recorded_copyRows rows.rows ho hrows⟩
      | some policy =>
        rw [hpolicy] at hrest
        obtain ⟨existing, y₂, hids, hrest⟩ := run_bind_eq_ok hrest
        obtain ⟨_, y₃, hrows, hpure⟩ := run_bind_eq_ok hrest
        cases hpure
        have ho₂ := owner?_of_copies (m.copiesAlong.rowIds old.name) ho hids
        obtain ⟨fates, hlength, hfates⟩ := recorded_placeRows rows.records ho₂ hrows
        exact ⟨rfl, fates, by simp [hlength, RowSet.records], (recorded_rowIds hids).trans hfates⟩
    obtain ⟨rfl, fates, hlength, hfates⟩ := hplaced
    exact .inr ⟨by simpa using hshared, rfl, rows, fates, hlength, hcopy.trans hfates⟩

/-- The tally of tables of the old database: those are copied for whose rows there is a query, and
each row of the answers has become something. -/
structure Covers (query? : TableSnapshot → Option Sql.Command) (oldTables : List TableSnapshot)
    (t : Tally) : Prop where
  copies : t.copies.map Exchange.sql = (oldTables.filterMap query?).map Sql.Command.text
  tables : t.tables = (oldTables.filterMap query?).length
  left : t.left = (oldTables.filter fun old => (query? old).isNone).map TableSnapshot.name
  fates : t.fates.length = (t.copies.map fun x => x.rows.length).sum

theorem covers_nil (query? : TableSnapshot → Option Sql.Command) : Covers query? [] {} :=
  ⟨rfl, rfl, rfl, rfl⟩

theorem Covers.append {query? : TableSnapshot → Option Sql.Command} {us ts : List TableSnapshot}
    {a b : Tally} (h : Covers query? us a) (h' : Covers query? ts b) :
    Covers query? (us ++ ts) (a ++ b) where
  copies := by simp [h.copies, h'.copies]
  tables := by simp [h.tables, h'.tables]
  left := by simp [h.left, h'.left]
  fates := by simp [h.fates, h'.fates]

/-- Every table is on one side. -/
theorem Covers.length_eq {query? : TableSnapshot → Option Sql.Command}
    {oldTables : List TableSnapshot} {t : Tally} (h : Covers query? oldTables t) :
    t.tables + t.left.length = oldTables.length := by
  rw [h.tables, h.left, List.length_map]
  clear h
  induction oldTables with
  | nil => rfl
  | cons old rest ih =>
    cases hquery : query? old with
    | none =>
      simp [hquery]
      omega
    | some command =>
      simp [hquery]
      omega

section Tables
variable {newTables : List TableSnapshot} {old : TableSnapshot} {u : Unit}

/-- A table is copied if there is a query for its rows. -/
theorem recorded_copyInto {copied : Bool} (ho : y.new.owner? = some m.new.thread)
    (h : (m.copyInto newTables old).run y = (.ok copied, z)) :
    let query? := m.copyQuery? newTables y.report.oldVersion y.report.newVersion old
    (query? = none ∧ copied = false ∧ m.Recorded y {} z) ∨
      ∃ command rows fates, query? = some command ∧ copied = true ∧
        fates.length = rows.rows.length ∧
        m.Recorded y { copies := [⟨.query, command.text, .rows rows⟩], fates } z := by
  unfold copyInto at h
  simp only [copyQuery?]
  cases hfind : newTables.reverse.find? (·.name = old.name) with
  | none =>
    rw [hfind] at h
    cases h
    exact .inl ⟨rfl, rfl, recorded_nothing _⟩
  | some new =>
    rw [hfind] at h
    replace h : (if m.shouldCopy y.report old new then m.copyTable old new
      else pure false : MigrationM σ Bool).run y = (.ok copied, z) := h
    have hversions : m.shouldCopy (.start y.report.oldVersion y.report.newVersion) old new =
        m.shouldCopy y.report old new := rfl
    simp only [Option.bind_some, hversions]
    split at h
    · rename_i hcopy
      rcases recorded_copyTable ho h with
        ⟨hshared, hcopied, hz⟩ | ⟨hshared, hcopied, rows, fates, hlength, hz⟩
      · exact .inl ⟨by simp [hshared], hcopied, hz⟩
      · exact .inr ⟨_, rows, fates, by simp [hcopy, hshared], hcopied, hlength, hz⟩
    · rename_i hcopy
      cases h
      exact .inl ⟨by simp [hcopy], rfl, recorded_nothing _⟩

/-- One table, with its entry in the account. -/
theorem recorded_table {copied : Bool} {f : MigrationReport → MigrationReport}
    (hf : ∀ r, f r = if copied then { r with tables := r.tables + 1 }
      else { r with skippedTables := r.skippedTables ++ [old.name] })
    (ho : y.new.owner? = some m.new.thread)
    (h : (m.copyInto newTables old).run y = (.ok copied, z))
    (hentry : (account f).run z = (.ok u, w)) :
    ∃ t, Covers (m.copyQuery? newTables y.report.oldVersion y.report.newVersion) [old] t ∧
      m.Recorded y t w := by
  rcases recorded_copyInto ho h with
    ⟨hquery, rfl, hz⟩ | ⟨command, rows, fates, hquery, rfl, hlength, hz⟩
  · have hleft : m.Recorded z { left := [old.name] } w :=
      recorded_account (by simp [hf, MigrationReport.enter]) rfl rfl hentry
    exact ⟨_, ⟨by simp [hquery], by simp [hquery], by simp [hquery], rfl⟩, hz.trans hleft⟩
  · have htable : m.Recorded z { tables := 1 } w :=
      recorded_account (by simp [hf, MigrationReport.enter]) rfl rfl hentry
    exact ⟨_, ⟨by simp [hquery], by simp [hquery], by simp [hquery],
      by simp [hlength, Exchange.rows]⟩, hz.trans htable⟩

/-- All tables of the old database, one after another. -/
theorem recorded_copyTables (oldTables : List TableSnapshot) {y : Migration σ}
    (ho : y.new.owner? = some m.new.thread)
    (h : (m.copyTables newTables oldTables).run y = (.ok u, z)) :
    ∃ t, Covers (m.copyQuery? newTables y.report.oldVersion y.report.newVersion) oldTables t ∧
      m.Recorded y t z := by
  induction oldTables generalizing y with
  | nil =>
    cases h
    exact ⟨{}, covers_nil _, recorded_nothing _⟩
  | cons old rest ih =>
    obtain ⟨copied, y₁, hcopied, hrest⟩ := run_bind_eq_ok h
    have ho₁ := owner?_of_copies (m.copiesAlong.copyInto newTables old) ho hcopied
    have hmore : ∀ {f : MigrationReport → MigrationReport},
        (∀ r, f r = if copied then { r with tables := r.tables + 1 }
          else { r with skippedTables := r.skippedTables ++ [old.name] }) →
        (account f >>= fun _ => m.copyTables newTables rest).run y₁ = (.ok u, z) →
        ∃ t, Covers (m.copyQuery? newTables y.report.oldVersion y.report.newVersion)
          (old :: rest) t ∧ m.Recorded y t z := by
      intro f hf hrest
      obtain ⟨_, y₂, hentry, hrest⟩ := run_bind_eq_ok hrest
      obtain ⟨a, ha, hrecorded⟩ := recorded_table hf ho hcopied hentry
      obtain ⟨b, hb, hrecorded'⟩ := ih (owner?_of_copies (copies_account f) ho₁ hentry) hrest
      rw [hrecorded.report] at hb
      exact ⟨a ++ b, ha.append hb, hrecorded.trans hrecorded'⟩
    cases copied with
    | true => exact hmore (fun _ => rfl) hrest
    | false => exact hmore (fun _ => rfl) hrest

end Tables

/-! ### A whole migration -/

theorem owner?_of_begin {mode : TransactionMode}
    (h : (onNew (m.new.begin mode)).run y = (.ok (), z)) :
    z.new.owner? = some m.new.thread := by
  cases hr : (m.new.begin mode).run y.new with
  | mk r s =>
    rw [run_onNew hr] at h
    cases h
    exact (m.new.acquired_of_begin hr).owner

/-- The bracket around the tables enters nothing; behind it the account is closed. -/
theorem recorded_copyAll {oldTables newTables : List TableSnapshot} {u : Unit}
    (h : (m.copyAll oldTables newTables).run y = (.ok u, z)) :
    ∃ t w committed,
      Covers (m.copyQuery? newTables y.report.oldVersion y.report.newVersion) oldTables t ∧
      m.Recorded y t w ∧
      z = { w with report := { w.report with status := .migrated, committed } } := by
  obtain ⟨⟨_, outcome⟩, w, hbracket, haccount⟩ := run_bind_eq_ok h
  cases haccount
  obtain ⟨y₁, y₂, y₃, hbegin, hbody, hmark, hfinish⟩ := run_bracket_eq_ok hbracket
  have hbrackets : ∀ {β : Type} {x : SessionM σ β}, Follows (Logs Entry.Brackets) x →
      Follows (Logs fun e => Sql.Aside e.sql) x :=
    fun hx s => (hx s).mono fun _ he => he.aside
  have hbegun := recorded_aside (m.new.talks_begin .exclusive)
    (hbrackets (m.new.logs_begin .exclusive)) hbegin
  obtain ⟨t, hcovers, hcopied⟩ := recorded_copyTables oldTables (owner?_of_begin hbegin) hbody
  have hmarked := recorded_aside m.new.talks_setSuccessful
    (hbrackets m.new.logs_setSuccessful) hmark
  have hfinished := recorded_aside m.new.talks_finish (hbrackets m.new.logs_finish) hfinish
  rw [hbegun.report] at hcovers
  have hall := ((hbegun.trans hcopied).trans hmarked).trans hfinished
  rw [Tally.append_nothing, Tally.append_nothing, Tally.nothing_append] at hall
  exact ⟨t, w, _, hcovers, hall, rfl⟩

/-- Looking at the tables enters nothing, and they are then copied. -/
theorem recorded_lookAndCopy {u : Unit} (h : m.lookAndCopy.run y = (.ok u, z)) :
    ∃ oldTables newTables t w committed,
      (m.old.snapshotTables.run y.old).1 = .ok oldTables ∧
      (m.new.snapshotTables.run y.new).1 = .ok newTables ∧
      Covers (m.copyQuery? newTables y.report.oldVersion y.report.newVersion) oldTables t ∧
      m.Recorded y t w ∧
      z = { w with report := { w.report with status := .migrated, committed } } := by
  obtain ⟨oldTables, y₁, hold, hrest⟩ := run_bind_eq_ok h
  obtain ⟨newTables, y₂, hnew, hcopy⟩ := run_bind_eq_ok hrest
  have hlookOld := recorded_asideOld m.old.talks_snapshotTables m.old.logs_aside_snapshotTables hold
  have hlookNew := recorded_aside m.new.talks_snapshotTables m.new.logs_aside_snapshotTables hnew
  obtain ⟨t, w, committed, hcovers, hcopied, hz⟩ := recorded_copyAll hcopy
  rw [hlookNew.report, hlookOld.report] at hcovers
  have hall := (hlookOld.trans hlookNew).trans hcopied
  rw [Tally.nothing_append, Tally.nothing_append] at hall
  -- the old session alone is asked first
  have hkept : y₁.new = y.new := (congrArg (fun p => p.2.new) hold).symm
  exact ⟨oldTables, newTables, t, w, committed, congrArg Prod.fst hold,
    hkept ▸ congrArg Prod.fst hnew, hcovers, hall, hz⟩

/-- The account of a migration agrees with what both sessions have sent and heard. -/
structure Accounts (query? : TableSnapshot → Option Sql.Command) (oldTables : List TableSnapshot)
    (heardOld heardNew : List Exchange) (report : MigrationReport) : Prop where
  /-- Every table was copied or left out. -/
  tables : report.tables + report.skippedTables.length = oldTables.length
  /-- The tables left out are those whose rows were not to be asked for, in their order. -/
  skippedTables : report.skippedTables =
    (oldTables.filter fun old => (query? old).isNone).map TableSnapshot.name
  /-- The rows of all others were asked for, and of no others. -/
  copies : (heardOld.filter Exchange.isCopy).map Exchange.sql =
    (oldTables.filterMap query?).map Sql.Command.text
  /-- Every row that was answered is counted once. -/
  rows : report.inserted + report.updated + report.skipped =
    ((heardOld.filter Exchange.isCopy).map fun x => x.rows.length).sum
  inserted : report.inserted = heardNew.countP Exchange.isInsert
  updated : report.updated = heardNew.countP Exchange.updatesRow
  /-- The rows that were left out are those that caused no statement, and those for which none was
  found to be changed. -/
  skipped : ∃ fates : List (Option Exchange),
    fates.length = ((heardOld.filter Exchange.isCopy).map fun x => x.rows.length).sum ∧
      fates.reduceOption = heardNew.filter Exchange.isWrite ∧
      report.skipped = fates.count none + heardNew.countP Exchange.updatesNothing

/-- What has been recorded since an account was opened is what the account says. -/
theorem accounts_of_recorded {query? : TableSnapshot → Option Sql.Command}
    {oldTables : List TableSnapshot} {t : Tally} {v v' : Int64}
    (hstart : y.report = .start v v') (hcovers : Covers query? oldTables t)
    (h : m.Recorded y t z) :
    Accounts query? oldTables (m.old.exchanges y.old z.old) (m.new.exchanges y.new z.new)
      z.report := by
  obtain ⟨⟨xs, hold, hcopies⟩, ⟨us, hnew, hwrites⟩, hreport⟩ := h
  rw [hold.eq_exchanges, hnew.eq_exchanges, hreport, hstart, MigrationReport.enter_start]
  have hcount : ∀ p : Exchange → Bool, (∀ {x}, p x = true → x.isWrite = true) →
      t.fates.reduceOption.countP p = us.countP p := by
    intro p hp
    rw [← hwrites, List.countP_filter]
    exact List.countP_congr fun x _ => by simpa using hp
  have hall : ∀ x ∈ t.fates.reduceOption, x.isWrite = true := by
    rw [← hwrites]
    exact fun x hx => (List.mem_filter.1 hx).2
  have hrows := hcovers.fates
  rw [← hcopies] at hrows
  have hinserted : t.fates.countP wasAdded = us.countP Exchange.isInsert :=
    (countP_any _ _).trans (hcount _ Exchange.isWrite_of_isInsert)
  have hupdated : t.fates.countP wasReplaced = us.countP Exchange.updatesRow :=
    (countP_any _ _).trans (hcount _ Exchange.isWrite_of_updatesRow)
  have hskipped : t.fates.countP wasLeft =
      t.fates.count none + us.countP Exchange.updatesNothing := by
    rw [← hcount _ Exchange.isWrite_of_updatesNothing]
    exact countP_all _ _
  exact {
    tables := hcovers.length_eq
    skippedTables := hcovers.left
    copies := hcopies ▸ hcovers.copies
    rows := (length_fates hall).trans hrows
    inserted := hinserted
    updated := hupdated
    skipped := ⟨t.fates, hrows, hwrites.symm, hskipped⟩ }

/-- Asking for the versions enters nothing. -/
theorem recorded_asked (old new : Session σ) (report : MigrationReport) :
    m.Recorded ⟨old, new, report⟩ {} ⟨m.old.asked old, m.new.asked new, report⟩ := by
  have haside : Sql.Aside Sql.Command.readVersion.text := Sql.Command.aside_text (by decide)
  refine ⟨⟨_, m.old.heard_query Sql.Command.readVersion.text old, ?_⟩,
    ⟨_, m.new.heard_query Sql.Command.readVersion.text new, ?_⟩, by simp [MigrationReport.enter]⟩
  · simp [Exchange.isCopy_of_aside (x := ⟨.query, Sql.Command.readVersion.text, _⟩) haside]
  · simp [Exchange.isWrite_of_aside (x := ⟨.query, Sql.Command.readVersion.text, _⟩) haside]

/-- In whatever state the databases are, whatever the policy and however the engines answer: the
account of a migration that has copied says what became of every table and of every row. -/
theorem run_accounts (m : Migrator σ) {old new old' new' : Session σ} {report : MigrationReport}
    (hrun : m.run.run (old, new) = (.ok report, old', new'))
    (hmigrated : report.status = .migrated) :
    ∃ v v' oldTables newTables, m.Found old new v v' oldTables newTables ∧
      Accounts (m.copyQuery? newTables v v') oldTables (m.old.exchanges old old')
        (m.new.exchanges new new') report := by
  rw [run_eq, run_steps] at hrun
  cases hold : m.old.foundVersion old with
  | error e =>
    rw [hold] at hrun
    cases hrun
  | ok v =>
    cases hnew : m.new.foundVersion new with
    | error e =>
      rw [hold, hnew] at hrun
      cases hrun
    | ok v' =>
      rw [hold, hnew] at hrun
      dsimp only at hrun
      split at hrun
      · cases hlook : m.lookAndCopy.run ⟨m.old.asked old, m.new.asked new, .start v v'⟩ with
        | mk r z =>
          rw [hlook] at hrun
          cases r with
          | error e => cases hrun
          | ok u =>
            cases hrun
            obtain ⟨oldTables, newTables, t, w, committed, holdTables, hnewTables, hcovers, hcopied,
              rfl⟩ := recorded_lookAndCopy hlook
            have hall := (recorded_asked old new (.start v v')).trans hcopied
            rw [Tally.nothing_append] at hall
            have h := accounts_of_recorded rfl hcovers hall
            exact ⟨v, v', oldTables, newTables, ⟨hold, hnew, holdTables, hnewTables⟩, h.tables,
              h.skippedTables, h.copies, h.rows, h.inserted, h.updated, h.skipped⟩
      · cases hrun
        cases hmigrated

/-- A policy by which one row is left out, one is added, and all others are written over. -/
def selective : RetentionPolicy :=
  { RetentionPolicy.permissive with
    disposition := fun _ row _ _ =>
      if row.text? (.named "name") = some "bob" then .skip
      else if row.text? (.named "name") = some "dan" then .insert
      else .update }

/-- A migrator that asks this policy. -/
def selectively : Migrator Store.Connection :=
  ⟨⟨Store.engine, .immediate, "main"⟩, ⟨Store.engine, .immediate, "main"⟩, some selective⟩

/-- Four people, and a table that the new database does not have. -/
def oldStaff : Session Store.Connection :=
  .start (.ofDatabase ⟨1, [people [⟨1, [.text "ann", .null]⟩, ⟨2, [.text "bob", .null]⟩,
    ⟨3, [.text "cid", .null]⟩, ⟨4, [.text "dan", .null]⟩],
    ⟨"lost", [⟨"a", false, false, .null⟩], [⟨1, [.text "x"]⟩]⟩]⟩ true)

def newStaff : Session Store.Connection :=
  .start (.ofDatabase ⟨2, [people [⟨1, [.text "a", .null]⟩]]⟩ false)

/-- One row is added and one is written over another; one is left out by the policy, and for one
there is none to be written over. -/
theorem run_accounts_selective : ∃ report old' new',
    selectively.run.run (oldStaff, newStaff) = (.ok report, old', new') ∧
      report.status = .migrated ∧
      (report.tables, report.skippedTables) = (1, ["lost"]) ∧
      (report.inserted, report.updated, report.skipped) = (1, 1, 2) ∧
      ∃ v v' oldTables newTables, selectively.Found oldStaff newStaff v v' oldTables newTables ∧
        Accounts (selectively.copyQuery? newTables v v') oldTables
          (selectively.old.exchanges oldStaff old') (selectively.new.exchanges newStaff new')
          report := by
  have hreport : (selectively.run.run (oldStaff, newStaff)).1 =
      .ok ⟨.migrated, 1, 2, 1, ["lost"], 1, 1, 2, true⟩ := by decide +kernel
  cases hrun : selectively.run.run (oldStaff, newStaff) with
  | mk result left =>
    obtain ⟨old', new'⟩ := left
    rw [hrun] at hreport
    cases hreport
    exact ⟨_, old', new', rfl, rfl, rfl, rfl, run_accounts selectively hrun rfl⟩

end SqlMaps.Migrator
