import SqlMaps.Cli.Run
import SqlMaps.Store.Image

/-! The program.

The files that the arguments name are read before the command runs, and what it has
made of them is written back behind it. A database rests in its file as an image. -/
namespace SqlMaps

/-- What bytes hold: a database if they are the image of one, or else themselves. -/
def Content.ofBytes (bytes : ByteArray) : Content :=
  match (String.fromUTF8? bytes).bind Store.Database.ofImage? with
  | some d => .database d
  | none => .bytes bytes.toList

/-- The bytes of a content. Directories have none. -/
def Content.toBytes : Content → ByteArray
  | .directory => .empty
  | .bytes content => ⟨content.toArray⟩
  | .database content => content.image.toUTF8

/-- A path that was looked at on the disk, and what it led to. -/
structure Seen where
  exact : Path
  path : String
  content : Option Content

/-- What a path leads to on the disk. -/
def readContent (path : String) : IO (Option Content) := do
  try
    return some (.ofBytes (← IO.FS.readBinFile path))
  catch
    | .noFileOrDirectory .. => return none
    | .inappropriateType .. => return some .directory
    | e => throw e

/-- The path up to each of its names. -/
def stepsOf (path : String) : List String :=
  let names := Path.names path
  (List.range names.length).map fun n => "/".intercalate (names.take (n + 1))

/-- The paths to look at for one that the arguments name: each step on the way to it, and
to the file that it means as the name of a database. -/
def stepsFor (files : Files) (path : String) : List String :=
  let meant? := match DatabaseName.ofText .create path with
    | .ok name => if name.isHeld then files.databasePath? name.path else none
    | .error _ => none
  stepsOf path ++ meant?.elim [] fun exact => stepsOf ("/" ++ "/".intercalate exact)

/-- Looks at a path, unless that has been done or nothing can be there. -/
def look (seen : List Seen × Files) (path : String) : IO (List Seen × Files) := do
  let (seen, files) := seen
  match files.locate path with
  | .error _ => return (seen, files)
  | .ok exact =>
    if (files.lookup? exact).isSome || seen.any (·.exact = exact) then return (seen, files)
    else
      let content ← readContent path
      let files := content.elim files (files.put exact)
      return (⟨exact, path, content⟩ :: seen, files)

/-- Writes back what has changed. -/
def writeBack (files : Files) (seen : Seen) : IO Unit := do
  let content := files.lookup? seen.exact
  unless content = seen.content do
    match content with
    | none => IO.FS.removeFile seen.path
    | some content => IO.FS.writeBinFile seen.path content.toBytes

/-- Runs the command that the arguments give, on the disk. -/
def runOnDisk (args : List String) : IO UInt32 := do
  let working := (Path.names (toString (← IO.currentDir))).filter (· != "")
  let files := Files.ofContents working []
  let paths := (Cli.Request.ofArguments? args).elim [] Cli.Request.paths
  let (seen, files) ← (paths.flatMap (stepsFor files)).foldlM look ([], files)
  let (exit, files) := Cli.run args files
  seen.forM (writeBack files)
  IO.print exit.output
  if let some complaint := exit.error then IO.eprint complaint
  return exit.code.toUInt32

end SqlMaps

/-- The program. -/
def main (args : List String) : IO UInt32 :=
  SqlMaps.runOnDisk args
