import SqlMaps.Files.Database
import SqlMaps.Proofs.Files.Frame

/-! Where names of databases lead, and what opening one changes.

A name that is a path is resolved by its names alone, and followed through the directories
by the other operations on files. Where both come to an end they come to the same
(`eq_of_opened?`). Opening and saving change nothing but the file that is opened
(`openDatabase_cases`, `agreeBut_saveDatabase`). -/
namespace SqlMaps

/-- A name that means itself: it is no URI, and no database held in memory. -/
def IsPath (name : String) : Prop :=
  Text.dropWord "file:".toList name.toList = none ∧ name ≠ ":memory:"

instance (name : String) : Decidable (IsPath name) :=
  inferInstanceAs (Decidable (_ ∧ _))

namespace DatabaseName

/-- A path means itself. -/
theorem eq_of_isPath {name : String} {access : Access} {meant : DatabaseName}
    (hname : IsPath name) (h : ofText access name = .ok meant) : meant = ⟨name, access⟩ := by
  rw [ofText] at h
  split at h
  · cases h
  · rw [hname.1] at h
    cases h
    rfl

end DatabaseName

namespace Files

/-! ### The two ways along a path -/

/-- Names lead to one place, whatever files there are. -/
theorem eq_of_resolve {f g : Files} {names : List String} {reached p r : Path}
    (hr : f.resolve names reached = some r) (hp : g.follow names reached = .ok p) : r = p := by
  induction names generalizing reached with
  | nil =>
    cases hr
    cases hp
    rfl
  | cons name names ih =>
    rw [resolve] at hr
    rw [follow] at hp
    cases hl : g.lookup? reached with
    | none => simp [hl] at hp
    | some c =>
      cases c with
      | bytes _ => simp [hl] at hp
      | database _ => simp [hl] at hp
      | directory =>
        simp only [hl] at hp
        by_cases hhere : name = "" ∨ name = "."
        · rw [if_pos hhere] at hr hp
          exact ih hr hp
        · rw [if_neg hhere] at hr hp
          by_cases hup : name = ".."
          · rw [if_pos hup] at hr hp
            exact ih hr hp
          · rw [if_neg hup] at hr hp
            split at hp
            · cases hp
            · split at hr
              · exact ih hr hp
              · cases hr

theorem resolve_of_databasePath? {files : Files} {name : String} {r : Path}
    (h : files.databasePath? name = some r) :
    files.resolve (Path.names name) (if Path.isAbsolute name then [] else files.working) =
      some r ∧ r ≠ [] := by
  obtain ⟨reached, hreached, h⟩ := Option.bind_eq_some_iff.mp h
  obtain ⟨_, hguard, hr⟩ := Option.bind_eq_some_iff.mp h
  cases hr
  refine ⟨hreached, ?_⟩
  rintro rfl
  cases hguard

theorem eq_of_databasePath? {files : Files} {name : String} {p r : Path}
    (hr : files.databasePath? name = some r) (hp : files.locate name = .ok p) : r = p := by
  obtain ⟨hresolve, _⟩ := resolve_of_databasePath? hr
  rw [locate] at hp
  split at hp
  · cases hp
  · split at hp
    · cases hp
    · exact eq_of_resolve hresolve hp

theorem databasePath?_of_opened? {files : Files} {name : String} {access : Access} {r : Path}
    (hname : IsPath name) (h : files.opened? name access = some r) :
    files.databasePath? name = some r := by
  rw [opened?] at h
  split at h
  · next hmeant =>
    rw [DatabaseName.eq_of_isPath hname hmeant] at h
    split at h
    · exact h
    · cases h
  · cases h

/-- The file that is opened is the one that the path leads to. -/
theorem eq_of_opened? {files : Files} {name : String} {access : Access} {p r : Path}
    (hname : IsPath name) (hr : files.opened? name access = some r)
    (hp : files.locate name = .ok p) : r = p :=
  eq_of_databasePath? (databasePath?_of_opened? hname hr) hp

/-! ### Opening and saving -/

/-- The ways in which opening a file comes out well. -/
theorem openFile_cases {files files' : Files} {name : String} {access : Access} {path : Path}
    {c : Store.Connection} (h : files.openFile name access path = .ok (c, files')) :
    (∃ content, files.lookup? path = some content ∧ files' = files ∧
      connection? (access = .read) content = some c) ∨
    files.lookup? path = none ∧ access = .create ∧ files' = files.put path (.bytes []) := by
  rw [openFile] at h
  cases hl : files.lookup? path with
  | none =>
    simp only [hl] at h
    split at h
    · next hcreate =>
      cases h
      simp only [Bool.and_eq_true, decide_eq_true_eq] at hcreate
      exact .inr ⟨rfl, hcreate.1, rfl⟩
    · cases h
  | some content =>
    simp only [hl] at h
    split at h
    · next hc =>
      cases h
      exact .inl ⟨content, rfl, rfl, hc⟩
    · cases h

theorem connection?_ne_directory {readOnly : Bool} {content : Content} {c : Store.Connection}
    (h : connection? readOnly content = some c) : content ≠ .directory := by
  rintro rfl
  cases h

/-- The ways in which opening a database comes out well: it is held in memory, or by the
file that its name opens. -/
theorem openDatabase_cases {files files' : Files} {name : String} {readOnly : Bool}
    {c : Store.Connection} (h : files.openDatabase name readOnly = .ok (c, files')) :
    ∃ meant, DatabaseName.ofText (if readOnly then .read else .create) name = .ok meant ∧
      (meant.isHeld = false ∧ files' = files ∨
        ∃ r, files.opened? name (if readOnly then .read else .create) = some r ∧
          files.openFile name meant.access r = .ok (c, files')) := by
  rw [openDatabase] at h
  rw [opened?]
  cases hm : DatabaseName.ofText (if readOnly then .read else .create) name with
  | error e => simp [hm] at h
  | ok meant =>
    refine ⟨meant, rfl, ?_⟩
    simp only [hm] at h
    cases hheld : meant.isHeld with
    | false =>
      simp only [hheld, Bool.not_false, if_true] at h
      cases h
      exact .inl ⟨rfl, rfl⟩
    | true =>
      simp only [hheld, Bool.not_true, Bool.false_eq_true, if_false] at h
      cases hp : files.databasePath? meant.path with
      | none => simp [hp] at h
      | some r =>
        simp only [hp] at h
        exact .inr ⟨r, by simp [hheld, hp], h⟩

/-- Opening a path to read it changes no file. -/
theorem openDatabase_read {files files' : Files} {name : String} {c : Store.Connection}
    (hname : IsPath name) (h : files.openDatabase name true = .ok (c, files')) :
    files' = files := by
  obtain ⟨meant, hmeant, ⟨_, hfiles⟩ | ⟨r, _, hopen⟩⟩ := openDatabase_cases h
  · exact hfiles
  · rcases openFile_cases hopen with ⟨_, _, hfiles, _⟩ | ⟨_, hcreate, _⟩
    · exact hfiles
    · cases DatabaseName.eq_of_isPath hname hmeant
      cases hcreate

/-- A database that a file holds is opened there. -/
theorem openFile_of_opened? {files files' : Files} {name : String} {readOnly : Bool}
    {c : Store.Connection} {r : Path} (h : files.openDatabase name readOnly = .ok (c, files'))
    (hr : files.opened? name (if readOnly then .read else .create) = some r) :
    ∃ meant, DatabaseName.ofText (if readOnly then .read else .create) name = .ok meant ∧
      files.openFile name meant.access r = .ok (c, files') := by
  obtain ⟨meant, hmeant, ⟨hheld, _⟩ | ⟨r', hr', hopen⟩⟩ := openDatabase_cases h
  · simp [opened?, hmeant, hheld] at hr
  · cases hr.symm.trans hr'
    exact ⟨meant, hmeant, hopen⟩

/-- Opening a database changes nothing but the file that is opened. -/
theorem agreeBut_openDatabase {files files' : Files} {name : String} {readOnly : Bool}
    {c : Store.Connection} {r : Path} (h : files.openDatabase name readOnly = .ok (c, files'))
    (hr : files.opened? name (if readOnly then .read else .create) = some r) :
    AgreeBut r files files' := by
  obtain ⟨meant, _, hopen⟩ := openFile_of_opened? h hr
  rcases openFile_cases hopen with ⟨content, hl, rfl, hc⟩ | ⟨hnone, _, rfl⟩
  · exact .refl (by simpa [hl] using connection?_ne_directory hc)
  · exact agreeBut_put (by simp [hnone]) (by simp)

/-- Opening a database that no file holds changes no file. -/
theorem openDatabase_of_unheld {files files' : Files} {name : String} {readOnly : Bool}
    {c : Store.Connection} (h : files.openDatabase name readOnly = .ok (c, files'))
    (hr : files.opened? name (if readOnly then .read else .create) = none) : files' = files := by
  obtain ⟨_, _, ⟨_, hfiles⟩ | ⟨r', hr', _⟩⟩ := openDatabase_cases h
  · exact hfiles
  · cases hr.symm.trans hr'

/-- A path that leads somewhere, and can be opened, opens the file that it leads to. -/
theorem opened?_of_locate {files files' : Files} {name : String} {readOnly : Bool}
    {c : Store.Connection} {p : Path} (hname : IsPath name)
    (h : files.openDatabase name readOnly = .ok (c, files')) (hp : files.locate name = .ok p) :
    files.opened? name (if readOnly then .read else .create) = some p := by
  obtain ⟨meant, hmeant, ⟨hheld, _⟩ | ⟨r, hr, _⟩⟩ := openDatabase_cases h
  · cases DatabaseName.eq_of_isPath hname hmeant
    have hempty : name ≠ "" := by
      rintro rfl
      cases hp
    cases readOnly <;> simp [DatabaseName.isHeld, hempty, hname.2] at hheld
  · cases eq_of_opened? hname hr hp
    exact hr

/-- Saving changes nothing but the file that was opened. -/
theorem agreeBut_saveDatabase {files : Files} {r : Path} (h : files.lookup? r ≠ some .directory)
    (c : Store.Connection) : AgreeBut r files (files.saveDatabase (some r) c) := by
  unfold saveDatabase
  cases hd : c.committed with
  | none => exact .refl h
  | some d =>
    dsimp only
    split
    · exact .refl h
    · exact agreeBut_put h (by simp)

end Files

/-- The database that a file holds; an empty file holds one without tables. -/
def Content.database? : Content → Option Store.Database
  | .bytes [] => some .empty
  | .database d => some d
  | _ => none

namespace Files

/-- A connection holds the database of its file, outside of a transaction. -/
theorem connection?_eq {readOnly : Bool} {content : Content} {c : Store.Connection}
    (h : connection? readOnly content = some c) : c = ⟨content.database?, none, readOnly⟩ := by
  cases content with
  | directory => cases h
  | database d =>
    cases h
    rfl
  | bytes bytes =>
    cases bytes with
    | nil =>
      cases h
      rfl
    | cons b bytes =>
      cases h
      rfl

/-- What is saved is what the file holds. -/
theorem lookup?_saveDatabase {files : Files} {r : Path} {c : Store.Connection}
    {d : Store.Database} (hr : r ≠ []) (hd : c.committed = some d) :
    ((files.saveDatabase (some r) c).lookup? r).bind Content.database? = some d := by
  simp only [saveDatabase, hd]
  split
  · next hheld =>
    obtain ⟨content, hl, hc⟩ := Option.bind_eq_some_iff.mp hheld
    have hcontent : some d = content.database? := congrArg Store.Connection.current
      (connection?_eq hc)
    rw [hl, Option.bind_some, hcontent]
  · rw [lookup?_put files hr, if_pos rfl]
    rfl

/-- A connection that has changed nothing leaves its file as it is. -/
theorem saveDatabase_of_unchanged {files : Files} {r : Path} {readOnly : Bool}
    {content : Content} {c : Store.Connection} (hl : files.lookup? r = some content)
    (hc : connection? readOnly content = some c) : files.saveDatabase (some r) c = files := by
  have hconn := connection?_eq hc
  subst hconn
  unfold saveDatabase
  cases hd : content.database? with
  | none => rfl
  | some d =>
    rw [hd] at hc
    have hheld : (files.lookup? r).bind (connection? readOnly) =
        some (.ofDatabase d readOnly) := by
      rw [hl, Option.bind_some, hc]
      rfl
    exact if_pos hheld

end Files

end SqlMaps
