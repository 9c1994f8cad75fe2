import SqlMaps.Files.Database
import SqlMaps.Migration.Basic

/-! Upgrading a database file: its rows are copied into a newer file, which takes its
place when they have been committed. Otherwise the newer file is removed, unless it is
to be kept, and the file in use stays as it was. -/
namespace SqlMaps

/-- Two database files and how one is copied into the other. -/
structure Upgrade where
  /-- The path of the file in use. -/
  oldPath : String
  /-- The path of the file with the new tables. -/
  newPath : String
  policy : Option RetentionPolicy
  /-- Whether a new file that was not needed stays. -/
  keepNew : Bool

namespace Upgrade

/-- The migrator between the sessions of two files. -/
def migrator (u : Upgrade) (engine : Engine Store.Connection) : Migrator Store.Connection :=
  ⟨⟨engine, .immediate, "main"⟩, ⟨engine, .immediate, "main"⟩, u.policy⟩

/-- Copies between the files. The old one is opened first, and only to be read. -/
def copy (u : Upgrade) (engine : Engine Store.Connection) (files : Files) :
    Except RunError MigrationReport × Files :=
  match files.openDatabase u.oldPath true with
  | .error e => (.error e, files)
  | .ok (old, files) =>
    match files.openDatabase u.newPath false with
    | .error e => (.error e, files)
    | .ok (new, opened) =>
      let (result, _, new) := (u.migrator engine).run.run (.start old, .start new)
      (result, opened.saveDatabase (files.opened? u.newPath .create) new.store)

/-- Removes the new file, if it can be. -/
def discardNew (u : Upgrade) (files : Files) : Files :=
  match files.remove u.newPath with
  | .ok files => files
  | .error _ => files

/-- Upgrades the file in use. -/
def run (u : Upgrade) (engine : Engine Store.Connection) (files : Files) :
    Except RunError MigrationReport × Files :=
  let (result, files) := u.copy engine files
  let committed := match result with
    | .ok report => report.committed
    | .error _ => false
  if committed then
    match files.rename u.newPath u.oldPath with
    | .ok files => (result, files)
    | .error e => (.error (.file e), files)
  else if u.keepNew then (result, files)
  else (result, u.discardNew files)

end Upgrade

end SqlMaps
