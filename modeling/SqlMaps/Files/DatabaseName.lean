import SqlMaps.Number.Integer
import SqlMaps.Text.Split
import SqlMaps.Text.Utf8

/-! What the name of a database means.

Most names are paths. One that begins with `file:` is a URI: a path in which any byte may
be written as a percent sign and two digits, then options behind a question mark, and a
fragment that means nothing. An option can give less access than is asked for, never
more. -/
namespace SqlMaps

/-- What a database file is opened for. -/
inductive Access where
  | read
  | write
  /-- It is written, and made if it is missing. -/
  | create
  /-- Nothing is opened; the database is held in memory. -/
  | memory
  deriving DecidableEq

namespace Access

/-- How much an access allows. The access to a file is always less than that to
memory. -/
def extent : Access → Nat
  | .read => 1
  | .write => 2
  | .create => 6
  | .memory => 128

/-- Whether an access may be asked for in place of another. -/
def within (asked given : Access) : Bool :=
  asked = .memory || asked.extent ≤ given.extent

/-- The access that an option asks for. -/
def ofOption? (value : String) : Option Access :=
  [("ro", .read), ("rw", .write), ("rwc", .create), ("memory", .memory)].lookup value

end Access

/-- The name of a database: its path, which is empty for one that no file holds, and what
it is opened for. -/
structure DatabaseName where
  path : String
  access : Access
  deriving DecidableEq

/-- Why a name means no database. -/
inductive DatabaseNameError where
  | zeroByte (position : Nat)
  | authority (name : String)
  | unknownMode (kind value : String)
  | forbiddenMode (value : String)
  | unknownSystem (name : String)
  deriving DecidableEq

/-- The wording of an error. -/
def DatabaseNameError.message : DatabaseNameError → String
  | .zeroByte position =>
    "nul byte found in provided data at position: " ++ Number.intText position
  | .authority name => "invalid uri authority: " ++ name
  | .unknownMode kind value => "no such " ++ kind ++ " mode: " ++ value
  | .forbiddenMode value => "access mode not allowed: " ++ value
  | .unknownSystem name => "no such vfs: " ++ name

namespace DatabaseName

/-! ### Parts of a URI -/

/-- The bytes that a part of a URI denotes. A zero ends it. -/
def denotedBytes : List UInt8 → List UInt8
  | 0x25 :: high :: low :: rest =>
    match Text.Hex.byte? (Char.ofUInt8 high) (Char.ofUInt8 low) with
    | some 0 => []
    | some b => b :: denotedBytes rest
    | none => 0x25 :: denotedBytes (high :: low :: rest)
  | b :: rest => b :: denotedBytes rest
  | [] => []

/-- The text that a part of a URI denotes. -/
def denoted (part : List Char) : String :=
  Text.Utf8.shown (denotedBytes (String.ofList part).toUTF8.toList)

/-- The path of a URI behind its authority, which is empty or the machine itself. -/
def withoutAuthority (s : List Char) : Except DatabaseNameError (List Char) :=
  match s with
  | '/' :: '/' :: rest =>
    let name := rest.takeWhile (· ≠ '/')
    if name.isEmpty || name = "localhost".toList then .ok (rest.drop name.length)
    else .error (.authority (String.ofList name))
  | s => .ok s

/-- The options of a URI, in order. Those without a name mean nothing. -/
def options (s : List Char) : List (String × String) :=
  let parts := (s.splitOn '&').map fun part =>
    (denoted (part.takeWhile (· ≠ '=')), denoted ((part.dropWhile (· ≠ '=')).drop 1))
  parts.filter fun (name, _) => name ≠ ""

/-! ### Options -/

/-- The access that is left when an option has been read. -/
def restrict (access : Access) (option : String × String) : Except DatabaseNameError Access :=
  match option with
  | ("mode", value) =>
    match Access.ofOption? value with
    | none => .error (.unknownMode "access" value)
    | some asked => if asked.within access then .ok asked else .error (.forbiddenMode value)
  | ("cache", value) =>
    if value = "shared" ∨ value = "private" then .ok access
    else .error (.unknownMode "cache" value)
  | _ => .ok access

/-- The file systems that an option can choose. -/
def systems : List String := ["unix", "unix-dotfile", "unix-excl", "unix-none", "memdb"]

/-- The access through the file system that the options choose last. -/
def throughSystem (access : Access) (options : List (String × String)) :
    Except DatabaseNameError Access :=
  match options.reverse.lookup "vfs" with
  | none => .ok access
  | some name =>
    if !systems.contains name then .error (.unknownSystem name)
    else .ok (if name = "memdb" then .memory else access)

/-- The name that a URI behind `file:` means. -/
def ofUri (access : Access) (s : List Char) : Except DatabaseNameError DatabaseName := do
  let s ← withoutAuthority s
  let s := s.takeWhile (· ≠ '#')
  let options := options ((s.dropWhile (· ≠ '?')).drop 1)
  let access ← throughSystem (← options.foldlM restrict access) options
  return ⟨denoted (s.takeWhile (· ≠ '?')), access⟩

/-- What a name means. -/
def ofText (access : Access) (text : String) : Except DatabaseNameError DatabaseName :=
  let s := text.toList
  if s.contains '\x00' then .error (.zeroByte (Text.byteLength (s.takeWhile (· ≠ '\x00'))))
  else match Text.dropWord "file:".toList s with
    | some uri => ofUri access uri
    | none => .ok ⟨text, access⟩

/-- Whether the database is held by a file. -/
def isHeld (name : DatabaseName) : Bool :=
  name.path != "" && name.path != ":memory:" && name.access != .memory

end DatabaseName

end SqlMaps
