import Mathlib.Data.List.Forall2
import SqlMaps.Proofs.Migration.AllOrNothing
import SqlMaps.Proofs.Session.Log
import SqlMaps.Proofs.Sql.StatementReading
import SqlMaps.Proofs.Store.Tables

/-! What a policy lets a migration write.

The entries of a log `Carry` the statements among them that add or change a row. What a
computation `Emits` is what it makes the log of the new session carry, however far it comes.
A row causes no statement or one (`RowSent`), a table those of its rows (`TableSent`), and a
migration those of the tables of the old database, one behind another (`Each`); each statement
is one that every question of the policy allows (`run_writesPermitted`). -/
namespace SqlMaps
open Attempt
variable {σ α β ι : Type}

/-! ### Statements in a log -/

/-- Whether the statement adds or changes a row. -/
def Sql.Command.isWrite : Sql.Command → Bool
  | .insert .. | .update .. => true
  | _ => false

/-- A statement of the library's own that adds and changes no row. -/
structure Entry.WritesNothing (e : Entry) : Prop where
  channel : e.channel ≠ .execute
  text : ∃ command : Sql.Command, command.isWrite = false ∧ e.sql = command.text

/-- The statements that the entries of a log execute. All other entries add and change no row. -/
inductive Carries : List Sql.Command → List Entry → Prop where
  | nil : Carries [] []
  | other {ws : List Sql.Command} {e : Entry} {es : List Entry} : e.WritesNothing →
      Carries ws es → Carries ws (e :: es)
  | executed {w : Sql.Command} {ws : List Sql.Command} {e : Entry} {es : List Entry} :
      e.channel = .execute → e.sql = w.text → Carries ws es → Carries (w :: ws) (e :: es)

theorem Carries.append {ws vs : List Sql.Command} {es fs : List Entry} (h : Carries ws es)
    (h' : Carries vs fs) : Carries (ws ++ vs) (es ++ fs) := by
  induction h with
  | nil => exact h'
  | other he _ ih => exact .other he ih
  | executed hchannel hsql _ ih => exact .executed hchannel hsql ih

theorem carries_nil {es : List Entry} (h : ∀ e ∈ es, e.WritesNothing) : Carries [] es := by
  induction es with
  | nil => exact .nil
  | cons e es ih =>
    obtain ⟨he, hes⟩ := List.forall_mem_cons.1 h
    exact .other he (ih hes)

/-- What a log carries is what it executes, in order. -/
theorem Carries.executed_eq {ws : List Sql.Command} {es : List Entry} (h : Carries ws es) :
    (es.filter (·.channel = .execute)).map Entry.sql = ws.map Sql.Command.text := by
  induction h with
  | nil => rfl
  | other he _ ih => simpa [he.channel] using ih
  | executed hchannel hsql _ ih => simp [hchannel, hsql, ih]

/-- What begins or ends a transaction writes nothing. -/
theorem Entry.Brackets.writesNothing {e : Entry} (h : e.Brackets) : e.WritesNothing := by
  refine ⟨by simp [h.channel], ?_⟩
  have hmem : e.sql ∈ controlTexts := by simpa [isControl, controls] using h.control
  rcases List.mem_append.1 hmem with hbegin | hend
  · obtain ⟨mode, -, hmode⟩ := List.mem_map.1 hbegin
    exact ⟨.begin mode, rfl, hmode.symm⟩
  · have hend' : e.sql = "COMMIT" ∨ e.sql = "ROLLBACK" := by simpa using hend
    rcases hend' with hcommit | hrollback
    · exact ⟨.commit, rfl, hcommit⟩
    · exact ⟨.rollback, rfl, hrollback⟩

/-- What queries have made of a database, one after another. -/
def Asked (e : Engine σ) : σ → σ → Prop :=
  Relation.ReflTransGen fun s s' => ∃ sql, s' = (e.query sql s).2

/-- A session whose database is asked and nothing else. -/
def Asks (e : Engine σ) (s s' : Session σ) : Prop :=
  Asked e s.store s'.store

instance (e : Engine σ) : Course (Asks e) where
  refl _ := Relation.ReflTransGen.refl
  trans h h' := Relation.ReflTransGen.trans h h'

namespace Caller
variable (c : Caller σ)

theorem asks_query (sql : String) : Follows (Asks c.engine) (c.query sql) :=
  fun _ => Relation.ReflTransGen.single ⟨sql, rfl⟩

theorem logs_ask {command : Sql.Command} (h : command.isWrite = false) :
    Follows (Logs Entry.WritesNothing) (c.query command.text) :=
  c.logs_query fun _ hchannel hsql => ⟨by simp [hchannel], command, h, hsql⟩

/-- A write sends its statement once, or not at all. -/
theorem carries_execute (command : Sql.Command) (s : Session σ) :
    ∃ es ws, ((c.execute command.text).run s).2.log = s.log ++ es ∧ Carries ws es ∧
      (ws = [] ∨ ws = [command]) := by
  have hbrackets : ∀ {es : List Entry}, (∀ e ∈ es, e.Brackets) → Carries [] es :=
    fun h => carries_nil fun e he => (h e he).writesNothing
  rw [run_execute]
  rcases c.log_transaction c.defaultMode (c.change command.text) s with
    ⟨es, hlog, hes⟩ | ⟨u, ⟨es, hlog, hes⟩, fs, hlog', hfs⟩
  · exact ⟨es, [], hlog, hbrackets hes, .inl rfl⟩
  · rw [run_change] at hlog'
    refine ⟨es ++ ([c.entry .execute command.text (c.engine.execute command.text u.store).1] ++ fs),
      [command], ?_, ?_, .inr rfl⟩
    · show ((c.transaction c.defaultMode (c.change command.text)).run s).2.log = _
      rw [hlog']
      simp [hlog]
    · exact (hbrackets hes).append (.executed rfl rfl (hbrackets hfs))

end Caller

namespace Migrator
variable (m : Migrator σ) {first : σ} {v v' : Int64}

/-! ### What a computation makes the log carry -/

/-- A migration on its way: the old database has been asked and nothing else, and the account
bears the versions. -/
structure Bears (first : σ) (v v' : Int64) (y : Migration σ) : Prop where
  asked : Asked m.old.engine first y.old.store
  old : y.report.oldVersion = v
  new : y.report.newVersion = v'

/-- However far it comes, the computation only asks the old database, keeps the versions in the
account, and makes the log of the new session carry further statements, which are as `P` says. -/
def Emits (first : σ) (v v' : Int64) (P : List Sql.Command → Prop) (x : MigrationM σ α) : Prop :=
  ∀ y, m.Bears first v v' y → m.Bears first v v' (x.run y).2 ∧
    ∃ es ws, (x.run y).2.new.log = y.new.log ++ es ∧ Carries ws es ∧ P ws

/-- The computation emits nothing. -/
abbrev Silent (first : σ) (v v' : Int64) (x : MigrationM σ α) : Prop :=
  m.Emits first v v' (· = []) x

variable {m}

section Emits
variable {P Q R : List Sql.Command → Prop}

theorem Emits.mono {x : MigrationM σ α} (hx : m.Emits first v v' P x) (h : ∀ ws, P ws → Q ws) :
    m.Emits first v v' Q x := by
  intro y hy
  obtain ⟨hy', es, ws, hlog, hcarries, hws⟩ := hx y hy
  exact ⟨hy', es, ws, hlog, hcarries, h ws hws⟩

theorem Silent.emits {x : MigrationM σ α} (hx : m.Silent first v v' x) (hP : P []) :
    m.Emits first v v' P x :=
  Emits.mono hx fun _ hws => hws ▸ hP

/-- A computation that leaves the new session alone emits nothing. -/
theorem silent_of_kept {x : MigrationM σ α}
    (h : ∀ y, m.Bears first v v' y → m.Bears first v v' (x.run y).2 ∧ (x.run y).2.new = y.new) :
    m.Silent first v v' x := by
  intro y hy
  obtain ⟨hy', hnew⟩ := h y hy
  exact ⟨hy', [], [], by rw [hnew, List.append_nil], .nil, rfl⟩

theorem silent_pure (a : α) : m.Silent first v v' (pure a : MigrationM σ α) :=
  silent_of_kept fun _ hy => ⟨hy, rfl⟩

theorem silent_settled (r : Except RunError α) : m.Silent first v v' (settled r : MigrationM σ α) :=
  silent_of_kept fun _ hy => ⟨hy, rfl⟩

/-- An account that is changed keeps the versions. -/
theorem silent_account {f : MigrationReport → MigrationReport}
    (hold : ∀ r, (f r).oldVersion = r.oldVersion) (hnew : ∀ r, (f r).newVersion = r.newVersion) :
    m.Silent first v v' (account f : MigrationM σ Unit) :=
  silent_of_kept fun y hy =>
    ⟨⟨hy.asked, (hold y.report).trans hy.old, (hnew y.report).trans hy.new⟩, rfl⟩

theorem silent_countSkipped : m.Silent first v v' (countSkipped : MigrationM σ Unit) :=
  silent_account (fun _ => rfl) fun _ => rfl

theorem silent_countUpdated : m.Silent first v v' (countUpdated : MigrationM σ Unit) :=
  silent_account (fun _ => rfl) fun _ => rfl

theorem silent_countInserted : m.Silent first v v' (countInserted : MigrationM σ Unit) :=
  silent_account (fun _ => rfl) fun _ => rfl

theorem silent_onNew {x : SessionM σ α} (h : Follows (Logs Entry.WritesNothing) x) :
    m.Silent first v v' (onNew x) := by
  intro y hy
  obtain ⟨es, hlog, hes⟩ := h y.new
  exact ⟨⟨hy.asked, hy.old, hy.new⟩, es, [], hlog, carries_nil hes, rfl⟩

theorem silent_brackets {x : SessionM σ α} (h : Follows (Logs Entry.Brackets) x) :
    m.Silent first v v' (onNew x) :=
  silent_onNew fun s => (h s).mono fun _ he => he.writesNothing

theorem emits_settle {x : MigrationM σ α} (hx : m.Emits first v v' P x) :
    m.Emits first v v' P (settle x) := hx

theorem emits_write (command : Sql.Command) :
    m.Emits first v v' (fun ws => ws = [] ∨ ws = [command]) (m.write command) := by
  intro y hy
  exact ⟨⟨hy.asked, hy.old, hy.new⟩, m.new.carries_execute command y.new⟩

theorem emits_bind {x : MigrationM σ α} {f : α → MigrationM σ β} (hx : m.Emits first v v' P x)
    (hf : ∀ a, m.Emits first v v' Q (f a)) (hQ : Q []) (h : ∀ ws vs, P ws → Q vs → R (ws ++ vs)) :
    m.Emits first v v' R (x >>= f) := by
  intro y hy
  obtain ⟨hy₁, es, ws, hlog, hcarries, hws⟩ := hx y hy
  rw [run_bind]
  cases hrun : x.run y with
  | mk r y₁ =>
    rw [hrun] at hy₁ hlog
    cases r with
    | error e => exact ⟨hy₁, es, ws, hlog, hcarries, List.append_nil ws ▸ h ws [] hws hQ⟩
    | ok a =>
      obtain ⟨hy₂, fs, vs, hlog', hcarries', hvs⟩ := hf a y₁ hy₁
      refine ⟨hy₂, es ++ fs, ws ++ vs, ?_, hcarries.append hcarries', h ws vs hws hvs⟩
      rw [hlog', hlog, List.append_assoc]

/-- What comes behind a silent computation emits all there is. -/
theorem Silent.bind {x : MigrationM σ α} {f : α → MigrationM σ β} (hx : m.Silent first v v' x)
    (hP : P []) (hf : ∀ a, m.Emits first v v' P (f a)) : m.Emits first v v' P (x >>= f) :=
  emits_bind hx hf hP fun _ _ hws hvs => hws ▸ hvs

/-- What comes in front of silent computations emits all there is. -/
theorem Emits.bind_silent {x : MigrationM σ α} {f : α → MigrationM σ β}
    (hx : m.Emits first v v' P x) (hf : ∀ a, m.Silent first v v' (f a)) : m.Emits first v v' P (x >>= f) :=
  emits_bind hx hf rfl fun ws _ hws hvs => hvs ▸ (List.append_nil ws).symm ▸ hws

theorem emits_settled_bind {r : Except RunError α} {f : α → MigrationM σ β} (hP : P [])
    (hf : ∀ a, r = .ok a → m.Emits first v v' P (f a)) :
    m.Emits first v v' P (settled r >>= f) := by
  cases r with
  | error e => exact (silent_settled (.error e)).emits hP
  | ok a => exact hf a rfl

theorem emits_get_bind {f : Migration σ → MigrationM σ α}
    (hf : ∀ y, m.Bears first v v' y → m.Emits first v v' P (f y)) :
    m.Emits first v v' P (get >>= f) :=
  fun y hy => hf y hy y hy

/-- An answer of the old database is one that its engine gives after it has been asked. -/
theorem emits_queryOld_bind {sql : String} {f : RowSet → MigrationM σ α} (hP : P [])
    (hf : ∀ store rows, Asked m.old.engine first store →
      (m.old.engine.query sql store).1 = .ok rows → m.Emits first v v' P (f rows)) :
    m.Emits first v v' P (onOld (m.old.query sql) >>= f) := by
  intro y hy
  have hy' : m.Bears first v v' ((onOld (m.old.query sql)).run y).2 :=
    ⟨Relation.ReflTransGen.tail hy.asked ⟨sql, rfl⟩, hy.old, hy.new⟩
  have hnew : ((onOld (m.old.query sql)).run y).2.new = y.new := rfl
  rw [run_bind]
  cases hrun : (onOld (m.old.query sql)).run y with
  | mk r y₁ =>
    rw [hrun] at hy' hnew
    cases r with
    | error e => exact ⟨hy', [], [], by rw [hnew, List.append_nil], .nil, hP⟩
    | ok rows =>
      rw [← hnew]
      exact hf y.old.store rows hy.asked (congrArg Prod.fst hrun) y₁ hy'

/-- A bracket around silent ends emits what its body emits. -/
theorem emits_bracket {enter mark : MigrationM σ Unit} {leave : MigrationM σ β}
    {body : MigrationM σ α} (henter : m.Silent first v v' enter) (hmark : m.Silent first v v' mark)
    (hleave : m.Silent first v v' leave) (hP : P []) (hbody : m.Emits first v v' P body) :
    m.Emits first v v' P (bracket enter mark leave body) := by
  have hinside : m.Emits first v v' P (do let a ← body; mark; return a : MigrationM σ α) :=
    hbody.bind_silent fun a => hmark.bind rfl fun _ => silent_pure a
  refine henter.bind hP fun _ => (emits_settle hinside).bind_silent fun r => ?_
  refine Silent.bind (emits_settle hleave) rfl fun o => ?_
  exact (silent_settled r).bind rfl fun a => (silent_settled o).bind rfl fun b => silent_pure (a, b)

end Emits

/-! ### What a policy permits -/

/-- Every item causes statements as `P` says, and these stand one behind another. -/
def Each (P : ι → List Sql.Command → Prop) (items : List ι) (ws : List Sql.Command) : Prop :=
  ∃ groups, List.Forall₂ P items groups ∧ ws = groups.flatten

theorem each_cons {P : ι → List Sql.Command → Prop} {item : ι} {items : List ι}
    {ws vs : List Sql.Command} (h : P item ws) (h' : Each P items vs) :
    Each P (item :: items) (ws ++ vs) := by
  obtain ⟨groups, hgroups, rfl⟩ := h'
  exact ⟨ws :: groups, .cons h hgroups, rfl⟩

/-- Items need not cause anything. -/
theorem each_nil {P : ι → List Sql.Command → Prop} (h : ∀ item, P item []) (items : List ι) :
    Each P items [] := by
  induction items with
  | nil => exact ⟨[], .nil, rfl⟩
  | cons item items ih => exact each_cons (h item) ih

section Policy
variable (policy : RetentionPolicy) (old new : TableSnapshot) (v v' : Int64)

/-- A value of a row may be written: both tables have its column, and the policy does not ignore
it. -/
structure Kept (row : Record) (a : String × Value) : Prop where
  value : a ∈ row.tail.entries
  inOld : a.1 ∈ old.columns
  inNew : a.1 ∈ new.columns
  notIgnored : policy.ignoresColumn old.name a.1 = false

/-- What a row may cause: nothing, or one statement. A row that is to be skipped causes none. -/
inductive RowSent (row : Record) : List Sql.Command → Prop where
  | none : RowSent row []
  /-- Values are written over those of the row with the same id. -/
  | update {id : Int64} {assignments : List (String × Value)} :
      policy.disposition old.name row.tail v v' ≠ .skip →
      row.value? (.at 0) = some (.integer id) →
      (∀ a ∈ assignments, Kept policy old new row a ∧
        policy.savesColumn old.name a.1 a.2 v v' = true) →
      RowSent row [.update old.name assignments id]
  /-- A row is added. -/
  | insert {kept : List (String × Value)} :
      policy.disposition old.name row.tail v v' = .insert →
      (∀ a ∈ kept, Kept policy old new row a) →
      RowSent row [.insert old.name (kept.map Prod.fst) (kept.map Prod.snd)]

variable {policy old new v v'}

theorem RowSent.eq_nil_of_skip {row : Record} {ws : List Sql.Command}
    (h : RowSent policy old new v v' row ws)
    (hskip : policy.disposition old.name row.tail v v' = .skip) : ws = [] := by
  cases h with
  | none => rfl
  | update hdisposition _ _ => exact absurd hskip hdisposition
  | insert hdisposition _ => cases hskip.symm.trans hdisposition

end Policy

/-- The old database answers with the columns asked for, in their order behind the row id. -/
def AnswersCopies (m : Migrator σ) : Prop :=
  ∀ ⦃table columns store rows⦄, columns ≠ [] →
    (m.old.engine.query (Sql.Command.copyRows table columns).text store).1 = .ok rows →
    rows.columns = Sql.rowIdAlias :: columns

/-- What a table of the old database may cause. -/
inductive TableSent (m : Migrator σ) (policy : RetentionPolicy) (newTables : List TableSnapshot)
    (first : σ) (v v' : Int64) (old : TableSnapshot) : List Sql.Command → Prop where
  | none : TableSent m policy newTables first v v' old []
  /-- Both databases have the table, and it is neither ignored nor kept from being saved; its
  rows are what the old database answers, which has only been asked. -/
  | copied {new : TableSnapshot} {rows : RowSet} {store : σ} {ws : List Sql.Command} :
      new ∈ newTables → new.name = old.name → policy.ignoresTable old.name = false →
      policy.savesTable old.name v v' = true → Asked m.old.engine first store →
      (m.old.engine.query (Sql.Command.copyRows old.name (old.sharedColumns new)).text store).1 =
        .ok rows →
      Each (RowSent policy old new v v') rows.records ws →
      TableSent m policy newTables first v v' old ws

/-! ### Copying -/

section Copy
variable {policy : RetentionPolicy} {old new : TableSnapshot} {row : Record}

theorem kept_of_mem (hcolumns : row.tail.columns = old.sharedColumns new) {a : String × Value}
    (ha : a ∈ row.tail.entries) (hignored : policy.ignoresColumn old.name a.1 = false) :
    Kept policy old new row a := by
  have hshared : a.1 ∈ old.columns.filter new.hasColumn := by
    have := (List.of_mem_zip (a := a.1) (b := a.2) ha).1
    rwa [hcolumns] at this
  obtain ⟨hold, hnew⟩ := List.mem_filter.1 hshared
  exact ⟨ha, hold, by simpa [TableSnapshot.hasColumn] using hnew, hignored⟩

theorem value?_of_rowId {id : Int64} (h : rowId row = .ok id) :
    row.value? (.at 0) = some (.integer id) := by
  unfold rowId at h
  split at h
  · cases h
    assumption
  · cases h

theorem emits_updateRow (hcolumns : row.tail.columns = old.sharedColumns new)
    (hdisposition : policy.disposition old.name row.tail v v' ≠ .skip) {id : Int64}
    (hid : row.value? (.at 0) = some (.integer id)) :
    m.Emits first v v' (RowSent policy old new v v' row)
      (m.updateRow policy old.name id row.tail) := by
  refine emits_get_bind fun y hy => ?_
  dsimp only
  rw [hy.old, hy.new]
  split
  · exact silent_countSkipped.emits .none
  · refine (Emits.mono (emits_write _) ?_).bind_silent fun changed => ?_
    · rintro ws (rfl | rfl)
      · exact .none
      · refine .update hdisposition hid fun a ha => ?_
        obtain ⟨hentry, hasked⟩ := List.mem_filter.1 ha
        obtain ⟨hignored, hsaved⟩ : policy.ignoresColumn old.name a.1 = false ∧
            policy.savesColumn old.name a.1 a.2 v v' = true := by simpa using hasked
        exact ⟨kept_of_mem hcolumns hentry hignored, hsaved⟩
    · split
      · exact silent_countUpdated
      · exact silent_countSkipped

theorem emits_insertRow (hcolumns : row.tail.columns = old.sharedColumns new)
    (hdisposition : policy.disposition old.name row.tail v v' = .insert) :
    m.Emits first v v' (RowSent policy old new v v' row)
      (m.insertRow policy old.name row.tail) := by
  unfold insertRow
  dsimp only
  split
  · exact silent_countSkipped.emits .none
  · refine Emits.bind_silent ?_ fun _ => silent_countInserted
    refine Emits.bind_silent (Emits.mono (emits_write _) ?_) fun _ => silent_pure _
    rintro ws (rfl | rfl)
    · exact .none
    · refine .insert hdisposition fun a ha => ?_
      obtain ⟨hentry, hasked⟩ := List.mem_filter.1 ha
      exact kept_of_mem hcolumns hentry (by simpa using hasked)

/-- A row causes one statement at most, as the policy permits. -/
theorem emits_placeRow (hcolumns : row.tail.columns = old.sharedColumns new)
    (existing : List Int64) :
    m.Emits first v v' (RowSent policy old new v v' row)
      (m.placeRow policy old.name existing row) := by
  refine emits_settled_bind RowSent.none fun id hid => emits_get_bind fun y hy => ?_
  dsimp only
  rw [hy.old, hy.new]
  have hid' := value?_of_rowId hid
  cases hdisposition : policy.disposition old.name row.tail v v' with
  | skip => exact silent_countSkipped.emits .none
  | update => exact emits_updateRow hcolumns (by simp [hdisposition]) hid'
  | insert =>
    dsimp only
    split
    · exact emits_updateRow hcolumns (by simp [hdisposition]) hid'
    · exact emits_insertRow hcolumns hdisposition

theorem emits_placeRows {rows : List Record}
    (hcolumns : ∀ row ∈ rows, row.tail.columns = old.sharedColumns new) (existing : List Int64) :
    m.Emits first v v' (Each (RowSent policy old new v v') rows)
      (m.placeRows policy old.name existing rows) := by
  induction rows with
  | nil => exact (silent_pure ()).emits (each_nil (fun _ => RowSent.none) [])
  | cons row rows ih =>
    obtain ⟨hrow, hrows⟩ := List.forall_mem_cons.1 hcolumns
    exact emits_bind (emits_placeRow hrow existing) (fun _ => ih hrows)
      (each_nil (fun _ => RowSent.none) rows) fun _ _ => each_cons

/-- A table that is to be copied causes what its rows cause. -/
theorem emits_copyTable (hpolicy : m.policy = some policy) (hanswers : m.AnswersCopies)
    {newTables : List TableSnapshot} (hnew : new ∈ newTables) (hname : new.name = old.name)
    (hignored : policy.ignoresTable old.name = false)
    (hsaved : policy.savesTable old.name v v' = true) :
    m.Emits first v v' (m.TableSent policy newTables first v v' old) (m.copyTable old new) := by
  unfold copyTable
  dsimp only
  split
  · exact (silent_pure false).emits .none
  · next hshared =>
    refine emits_queryOld_bind TableSent.none fun store rows hasked hrows => ?_
    rw [hpolicy]
    have hcolumns : ∀ row ∈ rows.records, row.tail.columns = old.sharedColumns new := by
      intro row hrow
      obtain ⟨values, -, rfl⟩ := List.mem_map.1 hrow
      have hnames := hanswers (by simpa using hshared) hrows
      simp [Record.tail, hnames]
    have hids : m.Silent first v v' (m.rowIds old.name) :=
      (silent_onNew (m.new.logs_ask rfl)).bind rfl fun _ => silent_settled _
    refine hids.bind .none fun existing => Emits.bind_silent ?_ fun _ => silent_pure true
    exact (emits_placeRows hcolumns existing).mono fun _ =>
      .copied hnew hname hignored hsaved hasked hrows

theorem emits_copyInto (hpolicy : m.policy = some policy) (hanswers : m.AnswersCopies)
    (newTables : List TableSnapshot) (old : TableSnapshot) :
    m.Emits first v v' (m.TableSent policy newTables first v v' old)
      (m.copyInto newTables old) := by
  unfold copyInto
  split
  · exact (silent_pure false).emits .none
  · next new hfind =>
    refine emits_get_bind fun y hy => ?_
    split
    · next hcopy =>
      simp only [shouldCopy, hpolicy, hy.old, hy.new, Bool.and_eq_true, Bool.not_eq_true'] at hcopy
      have hmem : new ∈ newTables := by simpa using List.mem_of_find?_eq_some hfind
      have hname : new.name = old.name := by simpa using List.find?_some hfind
      exact emits_copyTable hpolicy hanswers hmem hname hcopy.2.1 hcopy.2.2
    · exact (silent_pure false).emits .none

theorem emits_copyTables (hpolicy : m.policy = some policy) (hanswers : m.AnswersCopies)
    (newTables oldTables : List TableSnapshot) :
    m.Emits first v v' (Each (m.TableSent policy newTables first v v') oldTables)
      (m.copyTables newTables oldTables) := by
  induction oldTables with
  | nil => exact (silent_pure ()).emits (each_nil (fun _ => TableSent.none) [])
  | cons old rest ih =>
    refine emits_bind (emits_copyInto hpolicy hanswers newTables old) (fun copied => ?_)
      (each_nil (fun _ => TableSent.none) rest) fun _ _ => each_cons
    have haccount : ∀ f : MigrationReport → MigrationReport,
        (∀ r, (f r).oldVersion = r.oldVersion) → (∀ r, (f r).newVersion = r.newVersion) →
        m.Emits first v v' (Each (m.TableSent policy newTables first v v') rest)
          (account f >>= fun _ => m.copyTables newTables rest) := fun f hold hnew =>
      (silent_account hold hnew).bind (each_nil (fun _ => TableSent.none) rest) fun _ => ih
    cases copied with
    | true => exact haccount _ (fun _ => rfl) fun _ => rfl
    | false => exact haccount _ (fun _ => rfl) fun _ => rfl

theorem emits_copyAll (hpolicy : m.policy = some policy) (hanswers : m.AnswersCopies)
    (oldTables newTables : List TableSnapshot) :
    m.Emits first v v' (Each (m.TableSent policy newTables first v v') oldTables)
      (m.copyAll oldTables newTables) := by
  refine Emits.bind_silent ?_ fun _ => silent_account (fun _ => rfl) fun _ => rfl
  exact emits_bracket (silent_brackets (m.new.logs_begin .exclusive))
    (silent_brackets m.new.logs_setSuccessful) (silent_brackets m.new.logs_finish)
    (each_nil (fun _ => TableSent.none) oldTables)
    (emits_copyTables hpolicy hanswers newTables oldTables)

end Copy

/-! ### A whole migration -/

/-- What a migration has found before it copies: the versions of both databases, and then their
tables. -/
structure Found (m : Migrator σ) (old new : Session σ) (v v' : Int64)
    (oldTables newTables : List TableSnapshot) : Prop where
  oldVersion : m.old.foundVersion old = .ok v
  newVersion : m.new.foundVersion new = .ok v'
  oldTables : (m.old.snapshotTables.run (m.old.asked old)).1 = .ok oldTables
  newTables : (m.new.snapshotTables.run (m.new.asked new)).1 = .ok newTables

theorem asks_snapshotTables (c : Caller σ) : Follows (Asks c.engine) c.snapshotTables :=
  c.follows_snapshotTables (c.asks_query _) (fun _ => c.asks_query _) fun _ => c.asks_query _

theorem logs_asked (c : Caller σ) (s : Session σ) : Logs Entry.WritesNothing s (c.asked s) :=
  c.logs_ask (show Sql.Command.readVersion.isWrite = false from rfl) s

theorem logs_snapshotTables (c : Caller σ) : Follows (Logs Entry.WritesNothing) c.snapshotTables :=
  c.follows_snapshotTables (c.logs_ask rfl) (fun _ => c.logs_ask rfl) fun _ => c.logs_ask rfl

/-- Looking at the tables and copying what is to be kept. -/
theorem carries_lookAndCopy {policy : RetentionPolicy} (hpolicy : m.policy = some policy)
    (hanswers : m.AnswersCopies) {y : Migration σ} (hy : m.Bears first v v' y) :
    ∃ es ws, (m.lookAndCopy.run y).2.new.log = y.new.log ++ es ∧ Carries ws es ∧
      (ws = [] ∨ ∃ oldTables newTables, (m.old.snapshotTables.run y.old).1 = .ok oldTables ∧
        (m.new.snapshotTables.run y.new).1 = .ok newTables ∧
        Each (m.TableSent policy newTables first v v') oldTables ws) := by
  rw [lookAndCopy, run_bind]
  cases hold : m.old.snapshotTables.run y.old with
  | mk r s =>
    rw [run_onOld hold]
    cases r with
    | error e => exact ⟨[], [], (List.append_nil y.new.log).symm, .nil, .inl rfl⟩
    | ok oldTables =>
      have hasked := asks_snapshotTables m.old y.old
      rw [hold] at hasked
      obtain ⟨es, hlog, hes⟩ := logs_snapshotTables m.new y.new
      dsimp only
      rw [run_bind]
      cases hnew : m.new.snapshotTables.run y.new with
      | mk r' s' =>
        rw [hnew] at hlog
        rw [run_onNew (y := { y with old := s }) hnew]
        cases r' with
        | error e => exact ⟨es, [], hlog, carries_nil hes, .inl rfl⟩
        | ok newTables =>
          obtain ⟨-, fs, ws, hlog', hcarries, heach⟩ :=
            emits_copyAll hpolicy hanswers oldTables newTables ⟨s, s', y.report⟩
              ⟨Relation.ReflTransGen.trans hy.asked hasked, hy.old, hy.new⟩
          refine ⟨es ++ fs, ws, ?_, (carries_nil hes).append hcarries,
            .inr ⟨oldTables, newTables, rfl, rfl, heach⟩⟩
          rw [← List.append_assoc, ← hlog]
          exact hlog'

/-- However the engines answer otherwise: the log of the new session carries, of statements that
add or change a row, at most those that the tables of the old database cause, one table behind
another, and each of them is one that the policy permits. A row that is to be skipped causes
none of them (`RowSent.eq_nil_of_skip`). -/
theorem run_writesPermitted (m : Migrator σ) {policy : RetentionPolicy}
    (hpolicy : m.policy = some policy) (hanswers : m.AnswersCopies) (old new : Session σ) :
    ∃ toNew ws, (m.run.run (old, new)).2.2.log = new.log ++ toNew ∧ Carries ws toNew ∧
      (ws = [] ∨ ∃ v v' oldTables newTables, m.Found old new v v' oldTables newTables ∧
        Each (m.TableSent policy newTables old.store v v') oldTables ws) := by
  have hasked := logs_asked m.new new
  rw [run_eq, run_steps]
  cases hold : m.old.foundVersion old with
  | error e => exact ⟨[], [], (List.append_nil new.log).symm, .nil, .inl rfl⟩
  | ok v =>
    cases hnew : m.new.foundVersion new with
    | error e =>
      obtain ⟨es, hlog, hes⟩ := hasked
      exact ⟨es, [], hlog, carries_nil hes, .inl rfl⟩
    | ok v' =>
      dsimp only
      split
      · obtain ⟨es, hlog, hes⟩ := hasked
        obtain ⟨fs, ws, hlog', hcarries, hws⟩ := carries_lookAndCopy hpolicy hanswers
          (y := ⟨m.old.asked old, m.new.asked new, .start v v'⟩)
          ⟨m.old.asks_query _ old, rfl, rfl⟩
        refine ⟨es ++ fs, ws, ?_, (carries_nil hes).append hcarries, hws.imp_right ?_⟩
        · rw [hlog', hlog, List.append_assoc]
        · rintro ⟨oldTables, newTables, holdTables, hnewTables, heach⟩
          exact ⟨v, v', oldTables, newTables, ⟨hold, hnew, holdTables, hnewTables⟩, heach⟩
      · obtain ⟨es, hlog, hes⟩ := hasked
        exact ⟨es, [], hlog, carries_nil hes, .inl rfl⟩

/-- The table store answers so. -/
theorem answersCopies_store {m : Migrator Store.Connection} (h : m.old.engine = Store.engine) :
    m.AnswersCopies := by
  intro table columns c rows hcolumns hrows
  rw [h] at hrows
  have hread := Sql.read?_copyRows hcolumns table
  cases hrun : Store.runText (Sql.Command.copyRows table columns).text c with
  | mk r c' =>
    have hresult : (r.map Store.Answer.rowSet) = .ok rows := by
      rw [← hrows]
      show _ = (Store.runText _ c).1.map Store.Answer.rowSet
      rw [hrun]
    cases r with
    | error e => cases hresult
    | ok answer =>
      cases hresult
      cases hcurrent : c.current with
      | none => simp [Store.runText, hcurrent] at hrun
      | some d =>
        obtain ⟨-, hquestion⟩ :=
          Store.perform_of_asks rfl (Store.perform_of_runText hrun hcurrent hread)
        simp only [Store.question, bind, Except.bind] at hquestion
        split at hquestion
        · cases hquestion
        · split at hquestion
          · cases hquestion
          · rw [← Except.ok.inj hquestion]

/-- A policy that keeps a column and a row to itself. -/
def discreet : RetentionPolicy :=
  { RetentionPolicy.permissive with
    ignoresColumn := fun _ column => column = "secret"
    disposition := fun _ row _ _ =>
      if row.text? (.named "name") = some "bob" then .skip else .update }

/-- People with their names and secrets. -/
def people (rows : List Store.Row) : Store.Table :=
  ⟨"people", [⟨"name", false, false, .null⟩, ⟨"secret", false, false, .null⟩], rows⟩

/-- A migrator that asks this policy. -/
def discreetly : Migrator Store.Connection :=
  ⟨⟨Store.engine, .immediate, "main"⟩, ⟨Store.engine, .immediate, "main"⟩, some discreet⟩

def oldPeople : Session Store.Connection :=
  .start (.ofDatabase ⟨1, [people [⟨1, [.text "ann", .text "x"]⟩, ⟨2, [.text "bob", .text "y"]⟩]]⟩
    true)

def newPeople : Session Store.Connection :=
  .start (.ofDatabase ⟨2, [people [⟨1, [.text "a", .null]⟩, ⟨2, [.text "b", .null]⟩]]⟩ false)

/-- One of the rows is written over the one with its id, without its secret. -/
theorem run_writesPermitted_discreet :
    discreetly.policy = some discreet ∧ discreetly.AnswersCopies ∧
      ∃ ws v v' oldTables newTables,
        Carries ws (discreetly.run.run (oldPeople, newPeople)).2.2.log ∧
        Each (discreetly.TableSent discreet newTables oldPeople.store v v') oldTables ws ∧
        ws.map Sql.Command.text = ["UPDATE \"people\" SET \"name\" = 'ann' WHERE ROWID = 1"] := by
  have hanswers : discreetly.AnswersCopies := answersCopies_store rfl
  obtain ⟨toNew, ws, hlog, hcarries, hws⟩ :=
    run_writesPermitted discreetly rfl hanswers oldPeople newPeople
  have hstart : newPeople.log = [] := rfl
  rw [hstart, List.nil_append] at hlog
  have htexts : ws.map Sql.Command.text =
      ["UPDATE \"people\" SET \"name\" = 'ann' WHERE ROWID = 1"] := by
    rw [← hcarries.executed_eq, ← hlog]
    decide +kernel
  rcases hws with rfl | ⟨v, v', oldTables, newTables, -, heach⟩
  · cases htexts
  · refine ⟨rfl, hanswers, ws, v, v', oldTables, newTables, ?_, heach, htexts⟩
    rw [hlog]
    exact hcarries

end Migrator

end SqlMaps
