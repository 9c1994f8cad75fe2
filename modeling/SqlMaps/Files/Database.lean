import SqlMaps.Files.Basic
import SqlMaps.Files.DatabaseName
import SqlMaps.Session.Basic

/-! Opening the databases in a directory of files, and writing them back.

An empty file is a database without tables, and any other file that was not written
as a database is none. A path that is empty or `:memory:` is a database that no file
holds.

The path of a database is resolved by its names alone: `..` takes the name before it
away, whether that leads to a directory or to nothing. -/
namespace SqlMaps.Files

/-- How many bytes the path of a database cannot have any more. -/
def databasePathLimit : Nat := 512

/-- How many bytes a path has, with a slash before each name. -/
def pathLength (path : Path) : Nat :=
  Text.byteLength (path.flatMap fun name => '/' :: name.toList)

/-- Whether a path can be resolved further: something is there, or nothing is, but what
is on the way to it is no file. -/
def passable (files : Files) (path : Path) : Bool :=
  pathLength path < databasePathLimit &&
    match files.follow path [] with
    | .ok _ | .error .missing => true
    | .error _ => false

/-- The exact path that names mean, from a place that has been reached. -/
def resolve (files : Files) : List String → Path → Option Path
  | [], reached => some reached
  | name :: names, reached =>
    if name = "" ∨ name = "." then files.resolve names reached
    else if name = ".." then files.resolve names reached.dropLast
    else if files.passable (reached ++ [name]) then files.resolve names (reached ++ [name])
    else none

/-- The exact path of a database file. -/
def databasePath? (files : Files) (path : String) : Option Path := do
  let outset := if Path.isAbsolute path then [] else files.working
  let reached ← files.resolve (Path.names path) outset
  guard (!reached.isEmpty)
  return reached

/-- The connection to a file with the content. -/
def connection? (readOnly : Bool) : Content → Option Store.Connection
  | .directory => none
  | .bytes [] => some (.ofDatabase .empty readOnly)
  | .bytes _ => some (.unusable readOnly)
  | .database d => some (.ofDatabase d readOnly)

/-- The error of a name that no database can be opened under. -/
def cannotOpen (name : String) : RunError :=
  .database ("unable to open database file: " ++ name)

/-- Opens the file under an exact path. A directory can be opened to be read, and then
cannot be. -/
def openFile (files : Files) (name : String) (access : Access) (path : Path) :
    Except RunError (Store.Connection × Files) :=
  let readOnly := access = .read
  match files.lookup? path with
  | none =>
    if access = .create && files.lookup? path.dropLast = some .directory then
      .ok (.ofDatabase .empty readOnly, files.put path (.bytes []))
    else .error (cannotOpen name)
  | some content =>
    match connection? readOnly content with
    | some c => .ok (c, files)
    | none => .error (if readOnly then .database "disk I/O error" else cannotOpen name)

/-- Opens a database, to be read or to be written. To be written, a missing file is
created. -/
def openDatabase (files : Files) (name : String) (readOnly : Bool) :
    Except RunError (Store.Connection × Files) :=
  match DatabaseName.ofText (if readOnly then .read else .create) name with
  | .error e => .error (.database e.message)
  | .ok meant =>
    if !meant.isHeld then .ok (.ofDatabase .empty (meant.access = .read), files)
    else match files.databasePath? meant.path with
      | none => .error (cannotOpen name)
      | some path => files.openFile name meant.access path

/-- The exact path of the file that a name opens, if it opens one. -/
def opened? (files : Files) (name : String) (access : Access) : Option Path :=
  match DatabaseName.ofText access name with
  | .ok meant => if meant.isHeld then files.databasePath? meant.path else none
  | .error _ => none

/-- Writes back what a connection has made of the file it was opened on. A file that
the connection has not changed stays as it is. -/
def saveDatabase (files : Files) (path? : Option Path) (c : Store.Connection) : Files :=
  match path?, c.committed with
  | some path, some d =>
    let held := (files.lookup? path).bind (connection? c.readOnly)
    if held = some (.ofDatabase d c.readOnly) then files else files.put path (.database d)
  | _, _ => files

end SqlMaps.Files
