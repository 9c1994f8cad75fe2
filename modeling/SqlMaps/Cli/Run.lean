import SqlMaps.Cli.Help
import SqlMaps.Cli.Param
import SqlMaps.Cli.Report
import SqlMaps.Config.Load
import SqlMaps.Files.Database
import SqlMaps.Markup.Document
import SqlMaps.Migration.Upgrade
import SqlMaps.Template.Compile

/-! Running the command line on a directory of files. -/
namespace SqlMaps.Cli

/-- Why a command fails. -/
inductive Failure where
  | template (path : String) (cause : FileError)
  | malformed (path : String) (cause : Markup.Error)
  | param (cause : ParamError)
  | compile (query : String) (cause : Template.CompileError)
  | openDatabase (path : String) (cause : RunError)
  | version (cause : RunError)
  | tables (cause : RunError)
  | compare (cause : RunError)
  | policy (path : String) (cause : ConfigError)
  | migration (cause : RunError)
  | noDatabase (path : String)
  | optimize (cause : RunError)
  deriving DecidableEq

/-- The wording of a failure. -/
def Failure.message : Failure → String
  | .template path cause => "Failed to read template '" ++ path ++ "': " ++ cause.message
  | .malformed path cause => "Malformed template '" ++ path ++ "': " ++ cause.message
  | .param cause => cause.message
  | .compile query cause => "Failed to compile '" ++ query ++ "': " ++ cause.message
  | .openDatabase path cause => "Failed to open database '" ++ path ++ "': " ++ cause.message
  | .version cause => "Failed to read user_version: " ++ cause.message
  | .tables cause => "Failed to read tables: " ++ cause.message
  | .compare cause => "Failed to compare versions: " ++ cause.message
  | .policy path cause => "Failed to load policy '" ++ path ++ "': " ++ cause.message
  | .migration cause => "Migration failed: " ++ cause.message
  | .noDatabase path => "Database '" ++ path ++ "' does not exist"
  | .optimize cause => "Optimize failed: " ++ cause.message

/-- What a command prints, or why it fails. -/
abbrev Printed := Except Failure (List String)

/-- The caller of the sessions that a command opens. -/
def caller : Caller Store.Connection :=
  ⟨Store.engine, .immediate, "main"⟩

/-- Compiles a query of a template and prints its statement, and the statements of its
select keys. -/
def renderQuery (files : Files) (template query : String) (params : List String) : Printed := do
  let text ← (files.readText template).mapError (.template template)
  let events ← (Markup.Document.events text).mapError (.malformed template)
  let params ← (params.mapM readParam).mapError .param
  let compiled ← (Template.compile (.ofEvents events) query params).mapError (.compile query)
  return compiled.sql :: compiled.selectKeys.map fun key => "-- selectKey: " ++ key.selectKeySql

/-- Opens a database to be read. -/
def openToRead (files : Files) (path : String) :
    Except Failure (Session Store.Connection) := do
  let (connection, _) ← (files.openDatabase path true).mapError (.openDatabase path)
  return .start connection

/-- Prints the version and the tables of a database. -/
def showStatus (files : Files) (path : String) (json : Bool) : Printed := do
  let session ← openToRead files path
  let (version, session) := caller.userVersion.run session
  let version ← version.mapError .version
  let tables ← (caller.snapshotTables.run session).1.mapError .tables
  let status : Status := ⟨path, version, tables⟩
  return if json then [status.json.pretty] else status.lines

/-- Prints whether the new database is newer than the old one. -/
def compareVersions (files : Files) (old new : String) : Printed := do
  let oldSession ← openToRead files old
  let newSession ← openToRead files new
  let migrator : Migrator Store.Connection := ⟨caller, caller, none⟩
  let needed ← (migrator.needsUpdate.run (oldSession, newSession)).1.mapError .compare
  return [if needed then "yes" else "no"]

/-- Upgrades a database file and prints the account of it. -/
def migrateFile (files : Files) (old new : String) (policy : Option String) (keepNew json : Bool) :
    Printed × Files :=
  let loaded : Except Failure (Option RetentionPolicy) :=
    match policy with
    | none => .ok none
    | some path =>
      match Retention.load files path with
      | .ok r => .ok (some (.ofRetention r))
      | .error e => .error (.policy path e)
  match loaded with
  | .error e => (.error e, files)
  | .ok policy =>
    let (result, files) := (Upgrade.mk old new policy keepNew).run Store.engine files
    (match result with
      | .error e => .error (.migration e)
      | .ok report => .ok (if json then [(reportJson report).pretty] else reportLines report),
      files)

/-- Rebuilds a database file without its gaps. -/
def optimizeFile (files : Files) (path : String) : Printed × Files :=
  if !files.has path then (.error (.noDatabase path), files)
  else match files.openDatabase path false with
    | .error e => (.error (.openDatabase path e), files)
    | .ok (connection, opened) =>
      let (result, session) := caller.optimize.run (.start connection)
      (match result with
        | .error e => .error (.optimize e)
        | .ok () => .ok ["Optimized '" ++ path ++ "'."],
        opened.saveDatabase (files.opened? path .create) session.store)

/-- Runs a command. -/
def Command.run (files : Files) : Command → Printed × Files
  | .render template query params => (renderQuery files template query params, files)
  | .status db json => (showStatus files db json, files)
  | .needsUpdate old new => (compareVersions files old new, files)
  | .migrate old new policy keepNew json => migrateFile files old new policy keepNew json
  | .optimize db => optimizeFile files db

/-- How a run of the program ends. -/
structure Exit where
  code : UInt8
  /-- What is printed. -/
  output : String
  /-- The complaint, if there is one. -/
  error : Option String

/-- The end of a run that printed lines, or failed. -/
def Exit.ofPrinted : Printed → Exit
  | .ok lines => ⟨0, String.join (lines.map (· ++ "\n")), none⟩
  | .error e => ⟨1, "", some ("error: " ++ e.message ++ "\n")⟩

/-- The end of a run that shows the help about a topic. -/
def Exit.ofTopic (topic : Topic) : Exit := ⟨0, topic.page, none⟩

/-- The end of a run whose arguments were misused. -/
def Exit.misused : Exit := ⟨2, "", some Topic.program.page⟩

/-- Runs the program with arguments. -/
def run (args : List String) (files : Files) : Exit × Files :=
  match Request.ofArguments? args with
  | none => (.misused, files)
  | some (.help topic) => (.ofTopic topic, files)
  | some (.command command) =>
    let (printed, files) := command.run files
    (.ofPrinted printed, files)

end SqlMaps.Cli
