import SqlMaps.Config.Load
import SqlMaps.Files.Database
import SqlMaps.Mapper.Basic
import SqlMaps.Registry

/-! A database file with its session and its templates. -/
namespace SqlMaps

/-- An open database with its templates. -/
structure Database where
  settings : Settings
  templates : Registry
  session : Session Store.Connection

namespace Database

/-- Opens the database of the settings: they are checked, the templates loaded, and
then the file is opened. -/
def ofSettings (files : Files) (settings : Settings) : Except RunError (Database × Files) := do
  (settings.validate).mapError .config
  let templates ← match settings.templates with
    | some directory => (Registry.ofDirectory files directory).mapError .config
    | none => pure .empty
  let (connection, files) ← files.openDatabase settings.database settings.readOnly
  return (⟨settings, templates, .start connection⟩, files)

/-- Opens the database under a path. -/
def ofPath (files : Files) (path : String) : Except RunError (Database × Files) :=
  ofSettings files (.ofPath path)

/-- Opens the database of a settings file. -/
def ofFile (files : Files) (path : String) : Except RunError (Database × Files) := do
  let settings ← (Settings.load files path).mapError .config
  ofSettings files settings

/-- The caller of the database's session. -/
def caller (d : Database) : Caller Store.Connection :=
  ⟨Store.engine, d.settings.mode, "main"⟩

/-- The mapper of a template. -/
def mapper (d : Database) (name : String) : Except RunError (Mapper Store.Connection) := do
  let events ← (d.templates.require name).mapError .config
  return ⟨d.caller, .ofEvents events⟩

/-- The version that the file bears. -/
def version (d : Database) : Except RunError Int64 :=
  (d.caller.userVersion.run d.session).1

end Database

end SqlMaps
