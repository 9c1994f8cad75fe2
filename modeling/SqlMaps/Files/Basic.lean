import SqlMaps.Files.Error
import SqlMaps.Store.Engine
import SqlMaps.Text.Split

/-! A directory of files, and what a program does with it: reading texts, listing
directories, opening databases, moving and removing files.

A path is followed name by name from the directory that the program works in, or from
the outermost one when it begins with a slash. `.` and empty names stand for the
directory that has been reached, and `..` for the one around it. -/
namespace SqlMaps

/-- The names on the way to a file. -/
abbrev Path := List String

/-- What a path leads to. -/
inductive Content where
  | directory
  | bytes (bytes : List UInt8)
  | database (database : Store.Database)
  deriving DecidableEq

/-- Files under their paths from the outermost directory, every other directory with an
entry of its own. -/
structure Files where
  /-- The directory that the program works in. -/
  working : Path
  entries : List (Path × Content)
  deriving DecidableEq

namespace Path

/-- The names of a path. -/
def names (path : String) : List String :=
  (path.toList.splitOn '/').map String.ofList

/-- The name of a file without what follows its last point, and what follows it. A
point at the beginning belongs to the name. -/
def splitName (name : String) : String × Option String :=
  let reversed := name.toList.reverse
  let after := (reversed.takeWhile (· != '.')).reverse
  match reversed.dropWhile (· != '.') with
  | [] => (name, none)
  | [_] => (name, none)
  | _ :: before => (String.ofList before.reverse, some (String.ofList after))

/-- Whether a path begins at the outermost directory. -/
def isAbsolute (path : String) : Bool :=
  path.toList.head? = some '/'

/-- The directories around a path, but for the outermost one. -/
def parents (path : Path) : List Path :=
  (List.range path.length).tail.map path.take

/-- How many bytes a name can have. -/
def nameLimit : Nat := 255

/-- How many bytes a path cannot have any more. -/
def pathLimit : Nat := 4096

/-- A name behind a path. -/
def join (path name : String) : String :=
  if path = "" ∨ path.toList.getLast? = some '/' then path ++ name else path ++ "/" ++ name

end Path

namespace Files

/-- Contents under paths from a working directory, with the directories around them. -/
def ofContents (working : Path) (contents : List (Path × Content)) : Files :=
  let entries := contents.map fun (path, content) => (working ++ path, content)
  let around := Path.parents working ++ [working] ++ entries.flatMap (Path.parents ·.1)
  let directories := around.eraseDups.filter fun path =>
    !path.isEmpty && (entries.lookup path).isNone
  ⟨working, directories.map (·, .directory) ++ entries⟩

/-- What an exact path leads to. -/
def lookup? (files : Files) (path : Path) : Option Content :=
  if path.isEmpty then some .directory else files.entries.lookup path

/-- Puts a content under a path. -/
def put (files : Files) (path : Path) (content : Content) : Files :=
  { files with entries := files.entries.filter (·.1 ≠ path) ++ [(path, content)] }

/-- Takes away what is under a path. -/
def erase (files : Files) (path : Path) : Files :=
  { files with entries := files.entries.filter (·.1 ≠ path) }

/-- Follows names from a directory. All but the last have to lead to directories, and
around the outermost one there is nothing but itself. A name has a limit of bytes. -/
def follow (files : Files) : List String → Path → Except FileError Path
  | [], reached => .ok reached
  | name :: names, reached =>
    match files.lookup? reached with
    | none => .error .missing
    | some .directory =>
      if name = "" ∨ name = "." then files.follow names reached
      else if name = ".." then files.follow names reached.dropLast
      else if Path.nameLimit < Text.byteLength name.toList then .error .tooLong
      else files.follow names (reached ++ [name])
    | some _ => .error .notDirectory

/-- The exact path that a path means; it may lead to nothing yet. -/
def locate (files : Files) (path : String) : Except FileError Path :=
  if path = "" then .error .missing
  else if Path.pathLimit ≤ Text.byteLength path.toList then .error .tooLong
  else files.follow (Path.names path) (if Path.isAbsolute path then [] else files.working)

/-- What a path leads to. -/
def content (files : Files) (path : String) : Except FileError Content := do
  let reached ← files.locate path
  match files.lookup? reached with
  | none => throw .missing
  | some content => return content

/-- Whether a path leads to anything. -/
def has (files : Files) (path : String) : Bool :=
  (files.content path).isOk

/-- The text of a file. -/
def readText (files : Files) (path : String) : Except FileError String := do
  match ← files.content path with
  | .directory => throw .directory
  | .database _ => throw .notText
  | .bytes bytes =>
    match String.fromUTF8? ⟨bytes.toArray⟩ with
    | some s => return s
    | none => throw .notText

/-- The names in a directory, in order. -/
def namesIn (files : Files) (directory : Path) : List String :=
  let names := files.entries.filterMap fun (path, _) =>
    if directory.isPrefixOf path then path[directory.length]? else none
  names.eraseDups.mergeSort fun s t => !(t < s)

/-- The names in the directory that a path leads to. -/
def list (files : Files) (path : String) : Except FileError (List String) := do
  let reached ← files.locate path
  match files.lookup? reached with
  | none => throw .missing
  | some .directory => return files.namesIn reached
  | some _ => throw .notDirectory

/-- Removes a file. Directories are left alone. -/
def remove (files : Files) (path : String) : Except FileError Files := do
  let reached ← files.locate path
  match files.lookup? reached with
  | none => throw .missing
  | some .directory => throw .directory
  | some _ => return files.erase reached

/-- Moves a file over another, which is replaced in one step. A slash behind the target
asks for a directory, and a directory takes the place of no file. -/
def rename (files : Files) (source target : String) : Except FileError Files := do
  let before ← files.locate source
  let named := String.ofList (target.toList.reverse.dropWhile (· == '/')).reverse
  let after ← files.locate (if named = "" then target else named)
  match files.lookup? before, files.lookup? after with
  | none, _ => throw .missing
  | _, some .directory => throw .directory
  | some .directory, some _ => throw .notDirectory
  | some content, _ =>
    if named = target then return (files.erase before).put after content
    else throw .notDirectory

end Files

end SqlMaps
