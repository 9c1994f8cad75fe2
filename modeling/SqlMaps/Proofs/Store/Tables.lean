import SqlMaps.Proofs.Engine.Versions
import SqlMaps.Proofs.Store.Plain
import SqlMaps.Store.Engine

/-! The table store keeps tables.

Over plain tables the store answers and writes as `Relational.Tabular` asks for (`tabular`,
`appends`, `overwrites`, `numbers`), if it takes no further row once the ids are used up. The version is
a part of the database that no such statement writes (`versioned`). -/
namespace SqlMaps.Store

/-- A database of such tables. -/
structure Database.Plain (d : Database) : Prop where
  distinct : (d.tables.map Table.name).Nodup
  tables : ∀ t ∈ d.tables, t.Plain

/-- Whether a statement adds a row to a table whose ids are used up. -/
def usedUp (sql : String) (c : Connection) : Bool :=
  match c.current, Sql.Command.read? sql with
  | some d, some (.insert name _ _) =>
    (d.table? name).any fun t => t.rows.getLast?.any (·.id = Int64.maxValue)
  | _, _ => false

/-- The store, which takes no further row once the ids are used up. -/
def boundedEngine : Engine Connection :=
  { engine with
    execute := fun sql c =>
      if usedUp sql c then (.error (.database "database or disk is full"), c)
      else engine.execute sql c }

/-! ### Answers -/

/-- A statement that succeeds was read, and performed on the database. -/
theorem perform_of_runText {sql : String} {c c' : Connection} {answer : Answer}
    (h : runText sql c = (.ok answer, c')) {d : Database} (hd : c.current = some d)
    {command : Sql.Command} (hread : Sql.Command.read? sql = some command) :
    perform c d command = .ok (answer, c') := by
  simp only [runText, hd, hread, runCommand] at h
  cases hbroken : brokenLiteral? command with
  | some token => simp [hbroken] at h
  | none =>
    rw [hbroken] at h
    cases hwrites : c.readOnly && writes command with
    | true => simp [hwrites] at h
    | false =>
      rw [hwrites] at h
      cases hperform : perform c d command with
      | error e => simp [hperform] at h
      | ok result =>
        simp only [hperform] at h
        cases h
        rfl

/-- Names tell tables apart. -/
theorem Database.Plain.table? {d : Database} (hd : d.Plain) {t : Table} (ht : t ∈ d.tables) :
    d.table? t.name = some t := by
  rw [Database.table?]
  cases hfind : d.tables.find? (·.name = t.name) with
  | none => simpa using List.find?_eq_none.1 hfind t ht
  | some u =>
    have hname := List.find?_some hfind
    exact congrArg some (List.inj_on_of_nodup_map hd.distinct (List.mem_of_find?_eq_some hfind) ht
      (of_decide_eq_true hname))

theorem Database.Plain.findTable {d : Database} (hd : d.Plain) {t : Table} (ht : t ∈ d.tables) :
    findTable d t.name = .ok t := by
  rw [Store.findTable, hd.table? ht]

/-- The tables of a connection, as they are seen from outside. -/
def tablesOf (c : Connection) : List Relational.Table :=
  (c.current.elim [] Database.tables).map Table.shown

theorem answers_question {d : Database} (hd : d.Plain) {command : Sql.Command} {rows : RowSet}
    (h : question d command = .ok rows) :
    Relational.Answers (d.tables.map Table.shown) command rows := by
  cases command with
  | tableNames =>
    cases h
    exact ⟨"name", by rw [List.map_map]; rfl⟩
  | columns name =>
    rintro _ ht rfl
    obtain ⟨t, ht', rfl⟩ := List.mem_map.1 ht
    rw [question, Table.shown, hd.findTable ht'] at h
    cases h
    exact (columnNames_shown t).symm
  | countRows name =>
    rintro _ ht rfl
    obtain ⟨t, ht', rfl⟩ := List.mem_map.1 ht
    rw [question, Table.shown, hd.findTable ht'] at h
    cases h
    have hplain := hd.tables t ht'
    have hall : t.rows.filter (fun row => !(t.rowIdOf row).isNull) = t.rows :=
      List.filter_eq_self.2 fun row _ => by rw [hplain.rowIdOf row]; rfl
    refine ⟨"COUNT(ROWID)", _, rfl, ?_⟩
    rw [hall, hplain.toInt_length]
    simp [Table.shown]
  | copyRows name names =>
    rintro _ ht rfl hnames
    obtain ⟨t, ht', rfl⟩ := List.mem_map.1 ht
    rw [question, Table.shown, hd.findTable ht'] at h
    have hplain := hd.tables t ht'
    have hrow : ∀ row, copiedRow t names row =
        .integer row.shown.id :: names.map (t.shown.valueOf row.shown) := fun row => by
      rw [copiedRow, hplain.rowIdOf row]
      congr 1
      exact List.map_congr_left fun c _ => (valueOf_shown t row c).symm
    cases hfind : names.find? fun column => (t.position? column).isNone with
    | some column => simp [hfind, bind, Except.bind] at h
    | none =>
      simp only [hfind, bind, Except.bind] at h
      cases h
      have hrows : t.shown.rows = t.rows.map Row.shown := rfl
      rw [hplain.ordered, hrows, List.map_map]
      exact congrArg _ (List.map_congr_left fun row _ => hrow row)
  | _ => trivial

/-- A question leaves the connection as it is. -/
theorem perform_of_asks {c c' : Connection} {d : Database} {command : Sql.Command}
    {answer : Answer} (hasks : Relational.asks command = true)
    (h : perform c d command = .ok (answer, c')) :
    c' = c ∧ question d command = .ok answer.rowSet := by
  have hperform : perform c d command = (question d command).map fun rows => (.rows rows, c) := by
    cases command <;> first | rfl | cases hasks
  rw [hperform] at h
  cases hquestion : question d command with
  | error e => rw [hquestion] at h; cases h
  | ok rows =>
    rw [hquestion] at h
    cases h
    exact ⟨rfl, rfl⟩

/-- A question that is answered has left the connection as it is. -/
theorem question_of_query {sql : String} {c c' : Connection} {d : Database} {rows : RowSet}
    {command : Sql.Command} (hd : c.current = some d)
    (hread : Sql.Command.read? sql = some command) (hasks : Relational.asks command = true)
    (h : boundedEngine.query sql c = (.ok rows, c')) : c' = c ∧ question d command = .ok rows := by
  have hquery : boundedEngine.query sql c =
      ((runText sql c).1.map Answer.rowSet, (runText sql c).2) := rfl
  rw [hquery] at h
  cases hrun : runText sql c with
  | mk r c₁ =>
    rw [hrun] at h
    cases r with
    | error e => cases h
    | ok answer =>
      cases h
      exact perform_of_asks hasks (perform_of_runText hrun hd hread)

/-- A transaction begins and is committed with the database as it is. -/
theorem perform_of_brackets {c c' : Connection} {d : Database} {command : Sql.Command}
    {answer : Answer} (hcontrol : command = .commit ∨ ∃ mode, command = .begin mode)
    (h : perform c d command = .ok (answer, c')) : c'.current = c.current := by
  rcases hcontrol with rfl | ⟨mode, rfl⟩
  · change (if c.saved.isSome then _ else _) = _ at h
    split at h <;> cases h
    rfl
  · change (if c.saved.isSome then _ else _) = _ at h
    split at h <;> cases h
    rfl

theorem current_of_batch {sql : String} {c c' : Connection} {d : Database} {command : Sql.Command}
    (hd : c.current = some d) (hread : Sql.Command.read? sql = some command)
    (hcontrol : command = .commit ∨ ∃ mode, command = .begin mode)
    (h : boundedEngine.batch sql c = (.ok (), c')) : c'.current = c.current := by
  have hbatch : boundedEngine.batch sql c =
      ((runText sql c).1.map fun _ => (), (runText sql c).2) := rfl
  rw [hbatch] at h
  cases hrun : runText sql c with
  | mk r c₁ =>
    rw [hrun] at h
    cases r with
    | error e => cases h
    | ok answer =>
      cases h
      exact perform_of_brackets hcontrol (perform_of_runText hrun hd hread)

/-- A connection to a database of plain tables. -/
def Sound (c : Connection) : Prop :=
  ∃ d, c.current = some d ∧ d.Plain

theorem sound_ofDatabase {version : Int64} {t : Table} (h : t.Plain) (readOnly : Bool) :
    Sound (.ofDatabase ⟨version, [t]⟩ readOnly) :=
  ⟨_, rfl, List.nodup_singleton t.name, List.forall_mem_singleton.2 h⟩

theorem tablesOf_of_current {c : Connection} {d : Database} (h : c.current = some d) :
    tablesOf c = d.tables.map Table.shown := by
  rw [tablesOf, h]
  rfl

/-- The store keeps tables. -/
def tabular : Relational.Tabular boundedEngine where
  tables := tablesOf
  sound := Sound
  distinct := by
    rintro c ⟨d, hd, hplain⟩
    rw [tablesOf_of_current hd, List.map_map]
    exact hplain.distinct
  stored := by
    rintro c ⟨d, hd, hplain⟩ t ht row hrow v hv
    rw [tablesOf_of_current hd] at ht
    obtain ⟨t, ht', rfl⟩ := List.mem_map.1 ht
    obtain ⟨row, hrow', rfl⟩ := List.mem_map.1 hrow
    exact (hplain.tables t ht').stored row hrow' v hv
  query := by
    rintro c c' sql command rows ⟨d, hd, hplain⟩ hread hasks h
    obtain ⟨rfl, hquestion⟩ := question_of_query hd hread hasks h
    refine ⟨⟨d, hd, hplain⟩, rfl, ?_⟩
    rw [tablesOf_of_current hd]
    exact answers_question hplain hquestion
  bracket := by
    rintro c c' sql command ⟨d, hd, hplain⟩ hread hcontrol h
    have hd' := (current_of_batch hd hread hcontrol h).trans hd
    exact ⟨⟨d, hd', hplain⟩, (tablesOf_of_current hd').trans (tablesOf_of_current hd).symm⟩

theorem identifies : tabular.Identifies := by
  rintro c ⟨d, hd, hplain⟩ t ht
  change t ∈ tablesOf c at ht
  rw [tablesOf_of_current hd] at ht
  obtain ⟨t, ht', rfl⟩ := List.mem_map.1 ht
  rw [Table.shown, List.map_map]
  exact ids_nodup (hplain.tables t ht').sorted

/-! ### Writes -/

/-- A database with another table in the place of one. -/
theorem Database.Plain.setTable {d : Database} (hd : d.Plain) {t' : Table} (ht' : t'.Plain) :
    (d.setTable t').Plain where
  distinct := by
    have hnames : (d.setTable t').tables.map Table.name = d.tables.map Table.name := by
      rw [Database.setTable, List.map_map]
      refine List.map_congr_left fun u _ => ?_
      by_cases hu : u.name = t'.name <;> simp [hu]
    rw [hnames]
    exact hd.distinct
  tables u hu := by
    obtain ⟨w, hw, rfl⟩ := List.mem_map.1 hu
    split
    · exact ht'
    · exact hd.tables w hw

theorem shown_setTable (d : Database) (t' : Table) :
    (d.setTable t').tables.map Table.shown =
      Relational.replace t'.shown (d.tables.map Table.shown) := by
  rw [Database.setTable, Relational.replace, List.map_map, List.map_map]
  refine List.map_congr_left fun u _ => ?_
  by_cases hu : u.name = t'.name <;> simp [hu, Table.shown]

/-- A statement that writes one table of a database leaves it in its place. -/
theorem shows_setTable {c : Connection} {d : Database} (hcurrent : c.current = some d)
    (hd : d.Plain) {t t' : Table} (ht' : t'.Plain) {rows : List Relational.Row}
    (hshown : t'.shown = t.shown.withRows rows) :
    tabular.Shows (Relational.replace (t.shown.withRows rows) (tablesOf c))
      { c with current := some (d.setTable t') } := by
  refine ⟨⟨_, rfl, hd.setTable ht'⟩, ?_⟩
  show tablesOf _ = _
  rw [tablesOf_of_current hcurrent, tablesOf_of_current (d := d.setTable t') rfl,
    shown_setTable, hshown]

/-- A statement that writes and succeeds was run on the database. -/
theorem run_of_execute {sql : String} {c c' : Connection} {n : Nat}
    (h : boundedEngine.execute sql c = (.ok n, c')) :
    usedUp sql c = false ∧ ∃ answer, runText sql c = (.ok answer, c') ∧ n = answer.changedRows := by
  have hexecute : boundedEngine.execute sql c =
      if usedUp sql c then (.error (.database "database or disk is full"), c)
      else ((runText sql c).1.map Answer.changedRows, (runText sql c).2) := rfl
  rw [hexecute] at h
  split at h
  · cases h
  · rename_i hnot
    refine ⟨Bool.eq_false_iff.2 hnot, ?_⟩
    cases hrun : runText sql c with
    | mk r c₁ =>
      rw [hrun] at h
      cases r with
      | error e => cases h
      | ok answer =>
        cases h
        exact ⟨answer, rfl, rfl⟩

/-- The store adds a row behind the others, under the next id. -/
theorem shows_insert {sql : String} {c c' : Connection} {d : Database} {t : Table}
    {columns : List String} {values : List Value} {n : Nat} (hd : c.current = some d)
    (hplain : d.Plain) (ht : t ∈ d.tables)
    (hread : Sql.Command.read? sql = some (.insert t.name columns values))
    (h : boundedEngine.execute sql c = (.ok n, c')) :
    Relational.Next t.shown.rows t.nextId ∧
      tabular.Shows (Relational.replace (t.shown.withRows (t.shown.rows ++
        [⟨t.nextId, t.shown.filled (columns.zip (values.map Store.stored))⟩])) (tablesOf c)) c' := by
  obtain ⟨hunused, answer, hrun, -⟩ := run_of_execute h
  have hroom : ∀ row, t.rows.getLast? = some row → row.id ≠ Int64.maxValue := by
    intro row hlast hmax
    rw [usedUp, hd, hread] at hunused
    simp [hplain.table? ht, hlast, hmax] at hunused
  have hperform := perform_of_runText hrun hd hread
  change (findTable d t.name >>= _) = _ at hperform
  rw [hplain.findTable ht] at hperform
  change (t.insert columns values >>= _) = _ at hperform
  cases hinsert : t.insert columns values with
  | error e =>
    rw [hinsert] at hperform
    cases hperform
  | ok t' =>
    rw [hinsert] at hperform
    cases hperform
    obtain ⟨rfl, ht'⟩ := (hplain.tables t ht).insert hroom hinsert
    refine ⟨(hplain.tables t ht).next_nextId hroom, shows_setTable hd hplain ht' ?_⟩
    simp [Table.shown, Row.shown, Relational.Table.withRows]

theorem appends : tabular.Appends := by
  rintro c c' sql name columns values n _ ⟨d, hd, hplain⟩ hread h ht rfl
  change _ ∈ tablesOf c at ht
  rw [tablesOf_of_current hd] at ht
  obtain ⟨t, ht', rfl⟩ := List.mem_map.1 ht
  exact ⟨_, (shows_insert hd hplain ht' hread h).2⟩

/-- The store writes over the row with the id, and counts it. -/
theorem shows_update {sql : String} {c c' : Connection} {d : Database} {t : Table}
    {given : List (String × Value)} {id : Int64} {n : Nat} (hd : c.current = some d)
    (hplain : d.Plain) (ht : t ∈ d.tables)
    (hread : Sql.Command.read? sql = some (.update t.name given id))
    (h : boundedEngine.execute sql c = (.ok n, c')) :
    n = t.rows.countP (·.id = id) ∧ tabular.Shows (Relational.replace (t.shown.withRows
      (t.shown.overwriting id (Relational.asStored given))) (tablesOf c)) c' := by
  obtain ⟨-, answer, hrun, rfl⟩ := run_of_execute h
  have hperform := perform_of_runText hrun hd hread
  change (findTable d t.name >>= _) = _ at hperform
  rw [hplain.findTable ht] at hperform
  change (t.update given id >>= _) = _ at hperform
  have hplain' := hplain.tables t ht
  cases hupdate : t.update given id with
  | error e =>
    rw [hupdate] at hperform
    cases hperform
  | ok result =>
    obtain ⟨changed, t'⟩ := result
    rw [hupdate] at hperform
    cases hperform
    obtain ⟨hcount, rfl⟩ := hplain'.update hupdate
    exact ⟨hcount, shows_setTable hd hplain (hplain'.overwriting id given)
      (hplain'.shown_overwriting id given)⟩

theorem overwrites : tabular.Overwrites := by
  rintro c c' sql name given id n _ ⟨d, hd, hplain⟩ hread h ht rfl
  change _ ∈ tablesOf c at ht
  rw [tablesOf_of_current hd] at ht
  obtain ⟨t, ht', rfl⟩ := List.mem_map.1 ht
  exact ⟨_, (shows_update hd hplain ht' hread h).2, fun _ => rfl⟩

theorem numbers : tabular.Numbers where
  insert := by
    rintro c c' sql name columns values n _ ⟨d, hd, hplain⟩ hread h ht rfl -
    change _ ∈ tablesOf c at ht
    rw [tablesOf_of_current hd] at ht
    obtain ⟨t, ht', rfl⟩ := List.mem_map.1 ht
    exact ⟨_, shows_insert hd hplain ht' hread h⟩
  update := by
    rintro c c' sql name given id n _ ⟨d, hd, hplain⟩ hread h ht rfl
    change _ ∈ tablesOf c at ht
    rw [tablesOf_of_current hd] at ht
    obtain ⟨t, ht', rfl⟩ := List.mem_map.1 ht
    rw [(shows_update hd hplain ht' hread h).1, Table.shown, List.countP_map]
    rfl
  rowIds := by
    rintro c c' sql name rows _ ⟨d, hd, hplain⟩ hread h ht rfl
    change _ ∈ tablesOf c at ht
    rw [tablesOf_of_current hd] at ht
    obtain ⟨t, ht', rfl⟩ := List.mem_map.1 ht
    obtain ⟨-, hquestion⟩ := question_of_query hd hread rfl h
    rw [question, Table.shown, hplain.findTable ht'] at hquestion
    cases hquestion
    refine ⟨"ROWID", congrArg _ ?_⟩
    rw [Table.shown, List.map_map]
    exact List.map_congr_left fun row _ => by rw [(hplain.tables t ht').rowIdOf row]; rfl

/-! ### The version -/

/-- The version of the database that a connection is open to. -/
def versionOf (c : Connection) : Int64 :=
  c.current.elim 0 Database.version

theorem versionOf_of_current {c : Connection} {d : Database} (h : c.current = some d) :
    versionOf c = d.version := by
  rw [versionOf, h]
  rfl

/-- The store keeps the version beside the tables. -/
def versioned : Relational.Versioned tabular where
  version := versionOf
  answer := by
    rintro c c' sql rows ⟨d, hd, -⟩ hread h
    obtain ⟨-, hquestion⟩ := question_of_query hd hread rfl h
    cases hquestion
    exact ⟨"user_version", by rw [versionOf_of_current hd]⟩
  query := by
    rintro c c' sql command rows ⟨d, hd, -⟩ hread hasks h
    rw [(question_of_query hd hread hasks h).1]
  bracket := by
    rintro c c' sql command ⟨d, hd, -⟩ hread hcontrol h
    rw [versionOf, current_of_batch hd hread hcontrol h]
    rfl
  insert := by
    rintro c c' sql name columns values n ⟨d, hd, -⟩ hread h
    obtain ⟨-, answer, hrun, -⟩ := run_of_execute h
    have hperform := perform_of_runText hrun hd hread
    change (findTable d name >>= fun t => t.insert columns values >>= _) = _ at hperform
    cases hfind : findTable d name with
    | error e =>
      rw [hfind] at hperform
      cases hperform
    | ok t =>
      cases hinsert : t.insert columns values with
      | error e =>
        rw [hfind] at hperform
        change (t.insert columns values >>= _) = _ at hperform
        rw [hinsert] at hperform
        cases hperform
      | ok t' =>
        rw [hfind] at hperform
        change (t.insert columns values >>= _) = _ at hperform
        rw [hinsert] at hperform
        cases hperform
        rw [versionOf_of_current hd]
        rfl

end SqlMaps.Store
