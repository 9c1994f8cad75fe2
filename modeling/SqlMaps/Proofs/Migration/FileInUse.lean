import SqlMaps.Migration.Upgrade
import SqlMaps.Proofs.Files.Opening
import SqlMaps.Proofs.Migration.AllOrNothing

/-! What an upgrade does to the file in use.

An upgrade changes the files in two places: copying changes the file that the name of the
new database opens (`copy_frame`), and then the new path is removed, or moved to the old
one (`Ended`). Where neither place is that of the old path, the file in use stays as it was
unless the copy was committed. Where they are the same, nothing is ever committed, and the
file is lost when the new path is removed: `run_fileInUse` says exactly when. -/
namespace SqlMaps.Upgrade
open Attempt Files
variable (u : Upgrade) (engine : Engine Store.Connection) (files : Files)

/-! ### Copying -/

section
variable {u : Upgrade} {files : Files}

theorem copy_of_oldUnopened {e : RunError} (h : files.openDatabase u.oldPath true = .error e) :
    u.copy engine files = (.error e, files) := by
  rw [copy, h]

theorem copy_of_newUnopened {old : Store.Connection} {e : RunError}
    (ho : files.openDatabase u.oldPath true = .ok (old, files))
    (hn : files.openDatabase u.newPath false = .error e) :
    u.copy engine files = (.error e, files) := by
  simp only [copy, ho, hn]

theorem copy_of_opened {old new : Store.Connection} {opened : Files}
    (ho : files.openDatabase u.oldPath true = .ok (old, files))
    (hn : files.openDatabase u.newPath false = .ok (new, opened)) :
    u.copy engine files =
      let p := (u.migrator engine).run.run (.start old, .start new)
      (p.1, opened.saveDatabase (files.opened? u.newPath .create) p.2.2.store) := by
  simp only [copy, ho, hn]
  rfl

/-- The ways in which the databases come to be opened. -/
theorem opened_cases (files : Files) (hold : IsPath u.oldPath) :
    (∃ e, files.openDatabase u.oldPath true = .error e) ∨
      ∃ old, files.openDatabase u.oldPath true = .ok (old, files) ∧
        ((∃ e, files.openDatabase u.newPath false = .error e) ∨
          ∃ new opened, files.openDatabase u.newPath false = .ok (new, opened)) := by
  cases ho : files.openDatabase u.oldPath true with
  | error e => exact .inl ⟨e, rfl⟩
  | ok old =>
    obtain ⟨old, files'⟩ := old
    cases openDatabase_read hold ho
    refine .inr ⟨old, rfl, ?_⟩
    cases files.openDatabase u.newPath false with
    | error e => exact .inl ⟨e, rfl⟩
    | ok new => exact .inr ⟨new.1, new.2, rfl⟩

end

/-- Copying changes nothing but the file that the new name opens. -/
theorem copy_frame (hold : IsPath u.oldPath) :
    (u.copy engine files).2 = files ∨ ∃ r, files.opened? u.newPath .create = some r ∧
      AgreeBut r files (u.copy engine files).2 := by
  rcases opened_cases files hold with ⟨e, ho⟩ | ⟨old, ho, ⟨e, hn⟩ | ⟨new, opened, hn⟩⟩
  · rw [copy_of_oldUnopened engine ho]
    exact .inl rfl
  · rw [copy_of_newUnopened engine ho hn]
    exact .inl rfl
  · rw [copy_of_opened engine ho hn]
    cases hr : files.opened? u.newPath .create with
    | none => exact .inl (openDatabase_of_unheld hn hr)
    | some r =>
      have hopened := agreeBut_openDatabase hn hr
      exact .inr ⟨r, rfl, hopened.trans (agreeBut_saveDatabase hopened.right _)⟩

/-- The result says that rows were committed. -/
def Committed (result : Except RunError MigrationReport) : Prop :=
  ∃ report, result = .ok report ∧ report.committed = true

theorem not_committed_error (e : RunError) : ¬Committed (.error e) := by
  rintro ⟨_, hreport, _⟩
  cases hreport

theorem committed_ok {report : MigrationReport} :
    Committed (.ok report) ↔ report.committed = true := by
  constructor
  · rintro ⟨_, hreport, hcommitted⟩
    cases hreport
    exact hcommitted
  · exact fun hcommitted => ⟨report, rfl, hcommitted⟩

/-- The new database as copying leaves it, if both can be opened. -/
def migrated? (u : Upgrade) (engine : Engine Store.Connection) (files : Files) :
    Option Store.Database :=
  match files.openDatabase u.oldPath true with
  | .error _ => none
  | .ok (old, files) =>
    match files.openDatabase u.newPath false with
    | .error _ => none
    | .ok (new, _) =>
      ((u.migrator engine).run.run (.start old, .start new)).2.2.store.committed

/-- Nothing can be copied: a database cannot be opened, or both names open one file. -/
inductive Stuck (u : Upgrade) (files : Files) : Prop where
  | oldUnopened {e : RunError} : files.openDatabase u.oldPath true = .error e → Stuck u files
  | newUnopened {e : RunError} : files.openDatabase u.newPath false = .error e → Stuck u files
  | sameFile {r : Path} : files.opened? u.oldPath .read = some r →
      files.opened? u.newPath .create = some r → Stuck u files

/-- What an upgrade takes for granted of the engine. -/
structure Faithful (engine : Engine Store.Connection) : Prop where
  /-- The version is that of the database, whoever asks. -/
  version : ∀ {c c'}, c.current = c'.current →
    (engine.query "PRAGMA user_version" c).1 = (engine.query "PRAGMA user_version" c').1
  /-- Asking for it changes nothing. -/
  unchanged : ∀ c, (engine.query "PRAGMA user_version" c).2 = c
  /-- Only a database can be committed. -/
  committed : ∀ {c c'}, engine.batch "COMMIT" c = (.ok (), c') → c'.committed.isSome

/-- The connections to a file that both names open: to the same database. -/
theorem connections_of_sameFile {u : Upgrade} {files opened : Files} {r : Path}
    {old new : Store.Connection} (hold : IsPath u.oldPath)
    (hr : files.opened? u.oldPath .read = some r) (hr' : files.opened? u.newPath .create = some r)
    (ho : files.openDatabase u.oldPath true = .ok (old, files))
    (hn : files.openDatabase u.newPath false = .ok (new, opened)) :
    opened = files ∧ ∃ content readOnly, files.lookup? r = some content ∧
      old.current = content.database? ∧ connection? readOnly content = some new := by
  obtain ⟨meant, hmeant, hopen⟩ := openFile_of_opened? ho hr
  obtain ⟨meant', _, hopen'⟩ := openFile_of_opened? hn hr'
  rcases openFile_cases hopen with ⟨content, hl, _, hc⟩ | ⟨_, hcreate, _⟩
  · rcases openFile_cases hopen' with ⟨content', hl', hopened, hc'⟩ | ⟨hnone, _, _⟩
    · cases hl.symm.trans hl'
      exact ⟨hopened, content, _, hl, congrArg Store.Connection.current (connection?_eq hc), hc'⟩
    · cases hl.symm.trans hnone
  · cases DatabaseName.eq_of_isPath hold hmeant
    cases hcreate

/-- Where nothing can be copied, copying changes nothing and commits nothing. -/
theorem copy_of_stuck {u : Upgrade} {engine : Engine Store.Connection} {files : Files}
    (hold : IsPath u.oldPath) (hengine : Faithful engine) (h : u.Stuck files) :
    ¬Committed (u.copy engine files).1 ∧ (u.copy engine files).2 = files := by
  rcases opened_cases files hold with ⟨e, ho⟩ | ⟨old, ho, ⟨e, hn⟩ | ⟨new, opened, hn⟩⟩
  · rw [copy_of_oldUnopened engine ho]
    exact ⟨not_committed_error e, rfl⟩
  · rw [copy_of_newUnopened engine ho hn]
    exact ⟨not_committed_error e, rfl⟩
  · cases h with
    | oldUnopened ho' => cases ho.symm.trans ho'
    | newUnopened hn' => cases hn.symm.trans hn'
    | @sameFile r hr hr' =>
      obtain ⟨hopened, content, readOnly, hl, hcurrent, hc⟩ :=
        connections_of_sameFile hold hr hr' ho hn
      have hversion : (u.migrator engine).old.foundVersion (.start old) =
          (u.migrator engine).new.foundVersion (.start new) := by
        have hnew := congrArg Store.Connection.current (connection?_eq hc)
        exact congrArg (Except.bind · Caller.versionIn)
          (hengine.version (hcurrent.trans hnew.symm))
      obtain ⟨hnot, hstore⟩ := (u.migrator engine).run_of_sameVersion hversion
      have hnew : ((u.migrator engine).run.run (.start old, .start new)).2.2.store = new := by
        rcases hstore with hstore | hstore
        · rw [hstore]
          rfl
        · rw [hstore]
          exact hengine.unchanged new
      rw [copy_of_opened engine ho hn, hr']
      refine ⟨fun ⟨report, hreport, hcommitted⟩ => ?_, ?_⟩
      · cases (hnot report hreport).symm.trans hcommitted
      · dsimp only
        rw [hnew, hopened]
        exact saveDatabase_of_unchanged hl hc

/-! ### Replacing or removing -/

/-- The ways in which an upgrade ends, by what copying has come to. -/
inductive Ended (u : Upgrade) (copied : Except RunError MigrationReport × Files) :
    Except RunError MigrationReport × Files → Prop where
  | replaced {files : Files} : Committed copied.1 →
      copied.2.rename u.newPath u.oldPath = .ok files → Ended u copied (copied.1, files)
  | notMoved {e : FileError} : Committed copied.1 → Ended u copied (.error (.file e), copied.2)
  | kept : ¬Committed copied.1 → u.keepNew = true → Ended u copied copied
  | discarded : ¬Committed copied.1 → u.keepNew = false →
      Ended u copied (copied.1, u.discardNew copied.2)

theorem run_ended : Ended u (u.copy engine files) (u.run engine files) := by
  rw [run]
  cases u.copy engine files with
  | mk result copied =>
    cases result with
    | error e =>
      have hnot := not_committed_error e
      cases hk : u.keepNew with
      | true => exact .kept hnot hk
      | false => exact .discarded hnot hk
    | ok report =>
      cases hc : report.committed with
      | true =>
        have hcommitted : Committed (.ok report) := committed_ok.mpr hc
        simp only [hc, if_true]
        split
        · next hrename => exact .replaced hcommitted hrename
        · exact .notMoved hcommitted
      | false =>
        have hnot : ¬Committed (.ok report) := by simp [committed_ok, hc]
        simp only [hc, Bool.false_eq_true, if_false]
        cases hk : u.keepNew with
        | true => exact .kept hnot hk
        | false => exact .discarded hnot hk

/-- The upgrade removes the file in use: it is not to keep the new one, and both paths lead
to one file. -/
def Loses (u : Upgrade) (files : Files) : Prop :=
  u.keepNew = false ∧
    ∃ p, files.locate u.oldPath = .ok p ∧ files.locate u.newPath = .ok p ∧ files.IsFile p

/-- Neither does the new path lead to the place of the old one, nor is the new database
opened there. -/
def Apart (u : Upgrade) (files : Files) : Prop :=
  ∀ p, files.locate u.oldPath = .ok p →
    files.locate u.newPath ≠ .ok p ∧ files.opened? u.newPath .create ≠ some p

/-- Two paths are apart, or nothing can be copied. -/
theorem apart_or_stuck {u : Upgrade} (hold : IsPath u.oldPath) (hnew : IsPath u.newPath) :
    u.Apart files ∨ u.Stuck files := by
  rcases opened_cases files hold with ⟨e, ho⟩ | ⟨old, ho, ⟨e, hn⟩ | ⟨new, opened, hn⟩⟩
  · exact .inr (.oldUnopened ho)
  · exact .inr (.newUnopened hn)
  · by_cases hapart : u.Apart files
    · exact .inl hapart
    · refine .inr ?_
      simp only [Apart, Classical.not_forall] at hapart
      obtain ⟨p, hp, hmeet⟩ := hapart
      have hopened := opened?_of_locate hold ho hp
      refine .sameFile hopened ?_
      by_cases hp' : files.locate u.newPath = .ok p
      · exact opened?_of_locate hnew hn hp'
      · simpa [hp'] using hmeet

/-! ### The file in use -/

section
variable {u : Upgrade} {files : Files}

/-- Removing the new path leaves the old one alone that does not lead to the same file. -/
theorem found?_discardNew (h : ∀ p, files.locate u.oldPath = .ok p →
    files.locate u.newPath = .ok p → ¬files.IsFile p) :
    (u.discardNew files).found? u.oldPath = files.found? u.oldPath := by
  rw [discardNew]
  rcases files.remove_cases u.newPath with ⟨q, hq, hfile, hremove⟩ | ⟨_, e, hremove⟩
  · rw [hremove]
    exact (agreeBut_erase hfile.not_directory).found?_eq fun hp => h q hp hq hfile
  · rw [hremove]

/-- Removing the new path removes the old one with it that leads to the same file. -/
theorem found?_discardNew_of_same {p : Path} (hp : files.locate u.oldPath = .ok p)
    (hp' : files.locate u.newPath = .ok p) (hfile : files.IsFile p) :
    (u.discardNew files).found? u.oldPath = none := by
  have herase := agreeBut_erase hfile.not_directory
  have hne := ne_nil_of_lookup? hfile.not_directory
  rw [discardNew]
  rcases files.remove_cases u.newPath with ⟨q, hq, _, hremove⟩ | ⟨hnone, _⟩
  · cases hp'.symm.trans hq
    rw [hremove]
    show (files.erase p).found? u.oldPath = none
    rw [found?_of_locate (herase.locate_eq hp), lookup?_erase files hne, if_pos rfl]
  · exact absurd hfile (hnone p hp')

/-- Copying between places that are apart leaves the file in use alone. -/
theorem found?_copy (hold : IsPath u.oldPath) (h : u.Apart files) :
    (u.copy engine files).2.found? u.oldPath = files.found? u.oldPath := by
  rcases u.copy_frame engine files hold with hfiles | ⟨r, hr, hagree⟩
  · rw [hfiles]
  · exact hagree.found?_eq fun hp => (h r hp).2 hr

/-- What a path leads to is no other place after copying. -/
theorem locate_copy (hold : IsPath u.oldPath) {path : String} {p : Path} :
    (u.copy engine files).2.locate path = .ok p ↔ files.locate path = .ok p := by
  rcases u.copy_frame engine files hold with hfiles | ⟨r, _, hagree⟩
  · rw [hfiles]
  · exact ⟨hagree.symm.locate_eq, hagree.locate_eq⟩

/-- An upgrade that does not commit, where nothing can be copied. -/
theorem run_of_stuck (hold : IsPath u.oldPath) (hengine : Faithful engine) (h : u.Stuck files) :
    ¬Committed (u.run engine files).1 ∧
      (u.Loses files → (u.run engine files).2.found? u.oldPath = none) ∧
      (¬u.Loses files → (u.run engine files).2.found? u.oldPath = files.found? u.oldPath) := by
  obtain ⟨hnot, hfiles⟩ := copy_of_stuck hold hengine h
  have hended := u.run_ended engine files
  generalize u.run engine files = out at hended ⊢
  cases hended with
  | replaced hc => exact absurd hc hnot
  | notMoved hc => exact absurd hc hnot
  | kept _ hk =>
    refine ⟨hnot, fun hloses => ?_, fun _ => by rw [hfiles]⟩
    cases hk.symm.trans hloses.1
  | discarded _ hk =>
    rw [hfiles]
    refine ⟨hnot, fun ⟨_, p, hp, hp', hfile⟩ => found?_discardNew_of_same hp hp' hfile, ?_⟩
    intro hkeeps
    exact found?_discardNew fun p hp hp' hfile => hkeeps ⟨hk, p, hp, hp', hfile⟩

/-- An upgrade between places that are apart, if it does not commit. -/
theorem run_of_apart (hold : IsPath u.oldPath) (h : u.Apart files)
    (hnot : ¬Committed (u.run engine files).1) :
    (u.run engine files).2.found? u.oldPath = files.found? u.oldPath := by
  have hcopy := found?_copy engine hold h
  have hended := u.run_ended engine files
  generalize u.run engine files = out at hended hnot ⊢
  cases hended with
  | replaced hc => exact absurd hc hnot
  | notMoved => exact hcopy
  | kept => exact hcopy
  | discarded =>
    refine (found?_discardNew fun p hp hp' _ => ?_).trans hcopy
    exact (h p ((locate_copy engine hold).mp hp)).1 ((locate_copy engine hold).mp hp')

/-- What a committed copy leaves under the new path: the migrated database. -/
theorem lookup?_of_committed (hold : IsPath u.oldPath) (hnew : IsPath u.newPath)
    (hengine : Faithful engine) (hc : Committed (u.copy engine files).1) {q : Path}
    (hq : files.locate u.newPath = .ok q) :
    ∃ d, u.migrated? engine files = some d ∧
      ((u.copy engine files).2.lookup? q).bind Content.database? = some d := by
  rcases opened_cases files hold with ⟨e, ho⟩ | ⟨old, ho, ⟨e, hn⟩ | ⟨new, opened, hn⟩⟩
  · rw [copy_of_oldUnopened engine ho] at hc
    exact absurd hc (not_committed_error e)
  · rw [copy_of_newUnopened engine ho hn] at hc
    exact absurd hc (not_committed_error e)
  · have hopened : files.opened? u.newPath .create = some q := opened?_of_locate hnew hn hq
    rw [copy_of_opened engine ho hn, hopened] at hc ⊢
    obtain ⟨report, hreport, hcommitted⟩ := hc
    have hidle : (Session.start new).transaction = none := rfl
    obtain ⟨store, hcommit⟩ :=
      (u.migrator engine).commit_of_committed hidle hreport hcommitted
    obtain ⟨d, hd⟩ := Option.isSome_iff_exists.mp (hengine.committed hcommit)
    have hne := ne_nil_of_lookup? (agreeBut_openDatabase hn hopened).left
    refine ⟨d, ?_, lookup?_saveDatabase hne hd⟩
    simpa only [migrated?, ho, hn] using hd

/-- Moving a file to a path that is apart puts its content there, and leaves nothing. -/
theorem found?_rename {files' : Files} {source target : String} {q : Path} {d : Store.Database}
    (h : files.rename source target = .ok files') (hq : files.locate source = .ok q)
    (hne : files.locate target ≠ .ok q)
    (hd : (files.lookup? q).bind Content.database? = some d) :
    (files'.found? target).bind Content.database? = some d ∧ files'.found? source = none := by
  obtain ⟨q', p, content, hq', hp, hl, hpd, rfl⟩ := rename_cases h
  cases hq.symm.trans hq'
  have hpq : p ≠ q := by
    rintro rfl
    exact hne hp
  rw [hl, Option.bind_some] at hd
  have hfile : content ≠ .directory := by
    rintro rfl
    cases hd
  have herase : AgreeBut q files (files.erase q) := agreeBut_erase (by simpa [hl] using hfile)
  have hput : AgreeBut p (files.erase q) ((files.erase q).put p content) := by
    refine agreeBut_put ?_ hfile
    rw [herase.others p hpq]
    exact hpd
  have hnil := ne_nil_of_lookup? hput.left
  constructor
  · rw [found?_of_locate (hput.locate_eq (herase.locate_eq hp)), lookup?_put _ hnil, if_pos rfl,
      Option.bind_some, hd]
  · rw [found?_of_locate (hput.locate_eq (herase.locate_eq hq)), hput.others q hpq.symm,
      lookup?_erase _ (ne_nil_of_lookup? herase.left), if_pos rfl]

/-- An upgrade between places that are apart, if it commits. -/
theorem run_of_committed (hold : IsPath u.oldPath) (hnew : IsPath u.newPath)
    (hengine : Faithful engine) (h : u.Apart files) (hc : Committed (u.run engine files).1) :
    ∃ d, u.migrated? engine files = some d ∧
      ((u.run engine files).2.found? u.oldPath).bind Content.database? = some d ∧
      (u.run engine files).2.found? u.newPath = none := by
  have hended := u.run_ended engine files
  generalize u.run engine files = out at hended hc ⊢
  cases hended with
  | kept hnot => exact absurd hc hnot
  | discarded hnot => exact absurd hc hnot
  | notMoved => exact absurd hc (not_committed_error _)
  | replaced hcopied hrename =>
    obtain ⟨q, p, _, hq, _⟩ := rename_cases hrename
    have hq' := (locate_copy engine hold).mp hq
    obtain ⟨d, hmigrated, hd⟩ := lookup?_of_committed engine hold hnew hengine hcopied hq'
    have hne : (u.copy engine files).2.locate u.oldPath ≠ .ok q := by
      intro hp
      exact (h q ((locate_copy engine hold).mp hp)).1 hq'
    exact ⟨d, hmigrated, found?_rename hrename hq hne hd⟩

end

/-! ### The table store -/

theorem runCommand_readVersion (sql : String) (c : Store.Connection) (d : Store.Database) :
    Store.runCommand sql c d .readVersion =
      .ok (.rows ⟨["user_version"], [[.integer d.version]]⟩, c) := by
  obtain ⟨current, saved, readOnly⟩ := c
  cases readOnly <;> rfl

theorem runCommand_commit (sql : String) (c : Store.Connection) (d : Store.Database) :
    Store.runCommand sql c d .commit =
      if c.saved.isSome then .ok (.done, { c with saved := none })
      else .error .nothingToCommit := by
  obtain ⟨current, saved, readOnly⟩ := c
  cases readOnly <;> rfl

theorem runText_readVersion (c : Store.Connection) :
    Store.runText "PRAGMA user_version" c =
      (match c.current with
        | none => .error (.database Store.Error.notDatabase.message)
        | some d => .ok (.rows ⟨["user_version"], [[.integer d.version]]⟩), c) := by
  have hread : Sql.Command.read? "PRAGMA user_version" = some .readVersion := by decide +kernel
  cases hc : c.current with
  | none => simp only [Store.runText, hc]
  | some d => simp only [Store.runText, hc, hread, runCommand_readVersion]

theorem runText_commit (c : Store.Connection) :
    Store.runText "COMMIT" c =
      match c.current with
      | none => (.error (.database Store.Error.notDatabase.message), c)
      | some _ =>
        if c.saved.isSome then (.ok .done, { c with saved := none })
        else (.error (.database Store.Error.nothingToCommit.message), c) := by
  have hread : Sql.Command.read? "COMMIT" = some .commit := by decide +kernel
  cases hc : c.current with
  | none => simp only [Store.runText, hc]
  | some d =>
    simp only [Store.runText, hc, hread, runCommand_commit]
    cases c.saved.isSome with
    | true => rfl
    | false => rfl

theorem faithful_store : Faithful Store.engine where
  version {c c'} h := by
    show (Store.runText _ c).1.map _ = (Store.runText _ c').1.map _
    rw [runText_readVersion, runText_readVersion, h]
  unchanged c := by
    show (Store.runText _ c).2 = c
    rw [runText_readVersion]
  committed {c c'} h := by
    have hbatch : Store.engine.batch "COMMIT" c =
        ((Store.runText "COMMIT" c).1.map fun _ => (), (Store.runText "COMMIT" c).2) := rfl
    rw [hbatch, runText_commit] at h
    cases hc : c.current with
    | none => simp [hc, Except.map] at h
    | some d =>
      simp only [hc] at h
      split at h
      · cases h
        simp [Store.Connection.committed]
      · simp [Except.map] at h

/-- What an upgrade does to the file in use, whatever the files, the policy and the two
paths. If the copy is not committed the file stays as it was, unless the new path, which is
to be removed, leads to the same file. If it is committed, the old path holds the migrated
database, and the new path leads to nothing. -/
theorem run_fileInUse (hold : IsPath u.oldPath) (hnew : IsPath u.newPath)
    (hengine : Faithful engine) :
    (¬Committed (u.run engine files).1 →
      (u.Loses files → (u.run engine files).2.found? u.oldPath = none) ∧
        (¬u.Loses files → (u.run engine files).2.found? u.oldPath = files.found? u.oldPath)) ∧
    (Committed (u.run engine files).1 →
      ∃ d, u.migrated? engine files = some d ∧
        ((u.run engine files).2.found? u.oldPath).bind Content.database? = some d ∧
        (u.run engine files).2.found? u.newPath = none) := by
  rcases apart_or_stuck files hold hnew with hapart | hstuck
  · refine ⟨fun hnot => ⟨fun ⟨_, p, hp, hp', _⟩ => absurd hp' (hapart p hp).1, fun _ => ?_⟩, ?_⟩
    · exact run_of_apart engine hold hapart hnot
    · exact run_of_committed engine hold hnew hengine hapart
  · obtain ⟨hnot, hloses⟩ := run_of_stuck engine hold hengine hstuck
    exact ⟨fun _ => hloses, fun hc => absurd hc hnot⟩

/-- An upgrade of a file with itself. -/
def withItself : Upgrade := ⟨"app.db", "app.db", none, false⟩

/-- A directory with one database file. -/
def oneDatabase : Files :=
  .ofContents [] [(["app.db"], .database ⟨1, [⟨"t", [⟨"a", false, false, .null⟩],
    [⟨1, [.integer 1]⟩]⟩]⟩)]

theorem run_fileInUse_withItself :
    (IsPath withItself.oldPath ∧ IsPath withItself.newPath ∧ Faithful Store.engine) ∧
      (oneDatabase.found? "app.db").isSome ∧
      ¬Committed (withItself.run Store.engine oneDatabase).1 ∧
      (withItself.run Store.engine oneDatabase).2.found? "app.db" = none := by
  have hpaths : IsPath withItself.oldPath ∧ IsPath withItself.newPath := by decide
  have hnot : ¬Committed (withItself.run Store.engine oneDatabase).1 := by
    rintro ⟨report, hreport, hcommitted⟩
    have hresult : ((withItself.run Store.engine oneDatabase).1.map
        MigrationReport.committed).toOption = some false := by decide +kernel
    rw [hreport] at hresult
    cases hresult.symm.trans (congrArg some hcommitted)
  have hloses : withItself.Loses oneDatabase :=
    ⟨rfl, ["app.db"], rfl, rfl, _, rfl, by decide⟩
  obtain ⟨hkept, _⟩ := run_fileInUse withItself Store.engine oneDatabase hpaths.1 hpaths.2
    faithful_store
  exact ⟨⟨hpaths.1, hpaths.2, faithful_store⟩, by decide +kernel, hnot, (hkept hnot).1 hloses⟩

end SqlMaps.Upgrade
