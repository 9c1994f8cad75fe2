import SqlMaps.Text.Hex
import SqlMaps.Yaml.Cursor
import SqlMaps.Yaml.Token

/-! Anchors, aliases, tags, and the directives before a document.

A tag is written with a handle, which stands for its beginning, or in full between angle
brackets. A character that may not stand in it is written as the bytes of its UTF-8,
each a percent sign with two digits. -/
namespace SqlMaps.Yaml

/-! ### Anchors -/

/-- The name behind the mark of an anchor or an alias. -/
def anchorName (c : Cursor) : Option (List Char × Cursor) :=
  let (name, after) := (c.skip 1).span isNameChar
  let ends := after.rest.head?.all fun d =>
    isGap d || ['?', ':', ',', ']', '\x7d', '%', '@', '\x60'].contains d
  if !name.isEmpty && ends then some (name, after) else none

namespace Uri

/-- The characters that may stand in a tag as they are. -/
def isPlain (c : Char) : Bool :=
  isNameChar c ||
    [';', '/', '?', ':', '@', '&', '=', '+', '$', '.', '!', '~', '*', '\'', '(', ')'].contains c

/-- How many bytes follow the byte that begins a character. -/
def more? (b : UInt8) : Option Nat :=
  if b < 0x80 then some 0
  else if 0xC0 ≤ b && b < 0xE0 then some 1
  else if 0xE0 ≤ b && b < 0xF0 then some 2
  else if 0xF0 ≤ b && b < 0xF8 then some 3
  else none

/-- How many bytes of a character are still to come behind a byte, of which `due` were
to come before it. -/
def due? (due : Nat) (b : UInt8) : Option Nat :=
  match due with
  | 0 => more? b
  | n + 1 => if 0x80 ≤ b && b < 0xC0 then some n else none

/-- The bytes from here on, and how many characters they are written with. `full` says
that commas and square brackets belong to them, and `due` how many bytes of a character
are to come. -/
def bytes (full : Bool) (due : Nat) : List Char → Option (Uri × Nat)
  | '%' :: high :: low :: rest => do
    let b ← Text.Hex.byte? high low
    let (more, length) ← bytes full (← due? due b) rest
    return (b :: more, length + 3)
  | c :: rest =>
    if due ≠ 0 || c == '%' then none
    else if isPlain c || (full && [',', '[', ']'].contains c) then do
      let (more, length) ← bytes full 0 rest
      return (UInt8.ofNat c.toNat :: more, length + 1)
    else some ([], 0)
  | [] => if due ≠ 0 then none else some ([], 0)

/-- The bytes from here on; a zero ends them. -/
def read (full : Bool) (c : Cursor) : Option (Uri × Cursor) := do
  let (uri, length) ← bytes full 0 c.rest
  return (uri.takeWhile (· ≠ 0), c.skip length)

/-- The bytes from here on, of which at least one is written. -/
def readSome (full : Bool) (c : Cursor) : Option (Uri × Cursor) := do
  let (uri, after) ← read full c
  guard (after.place ≠ c.place)
  return (uri, after)

end Uri

namespace Tag

/-- What stands from an exclamation mark on: a name, and the mark that makes it a
handle. -/
def handleText (c : Cursor) : Option (List Char × Cursor) :=
  match c.rest with
  | '!' :: _ =>
    let (name, after) := (c.skip 1).span isNameChar
    if after.next? = some '!' then some ('!' :: name ++ ['!'], after.skip 1)
    else some ('!' :: name, after)
  | _ => none

/-- The handle of a tag and what follows it. A tag in full has no handle, and neither has
the mark that stands alone. -/
def parts (c : Cursor) : Option ((List Char × Uri) × Cursor) := do
  if "!<".toList.isPrefixOf c.rest then
    let (uri, after) ← Uri.readSome true (c.skip 2)
    guard (after.next? = some '>')
    return (([], uri), after.skip 1)
  else
    let (handle, after) ← handleText c
    if handle.length ≠ 1 && handle.getLast? = some '!' then
      let (uri, last) ← Uri.readSome false after
      return ((handle, uri), last)
    else
      let (uri, last) ← Uri.read false after
      let whole := Uri.ofName handle.tail ++ uri
      return (if whole.isEmpty then ([], Uri.ofName ['!']) else (['!'], whole), last)

/-- The tag whose mark stands here. A gap follows it, or between brackets a comma. -/
def read (flow : Bool) (c : Cursor) : Option (Token × Cursor) := do
  let ((handle, uri), after) ← parts c
  guard (endsMark after.rest || (flow && after.next? = some ','))
  return (.tag handle uri, after)

end Tag

namespace Directive

/-- A number of at most nine digits. -/
def number? (c : Cursor) : Option (Nat × Cursor) := do
  let (digits, after) := c.span Char.isDigit
  guard (!digits.isEmpty && digits.length ≤ 9)
  return (digits.foldl (fun n d => n * 10 + (d.toNat - '0'.toNat)) 0, after)

/-- The number of a version: two numbers with a point between them. -/
def version (c : Cursor) : Option (Token × Cursor) := do
  let (major, after) ← number? c
  guard (after.next? = some '.')
  let (minor, last) ← number? (after.skip 1)
  return (.version major minor, last)

/-- A handle, and what it stands for. -/
def handle (c : Cursor) : Option (Token × Cursor) := do
  let (name, after) ← Tag.handleText c
  guard (name = ['!'] || (name.length ≠ 1 && name.getLast? = some '!'))
  guard (after.next?.any isSpace)
  let (uri, last) ← Uri.readSome true (after.skipWhile isSpace)
  guard (endsMark last.rest)
  return (.handle name uri, last)

/-- The directive whose mark stands here, and the beginning of the next line. -/
def read (c : Cursor) : Option (Token × Cursor) := do
  let (name, after) := (c.skip 1).span isNameChar
  guard (endsMark after.rest)
  let content := after.skipWhile isSpace
  let (token, last) ←
    if name = "YAML".toList then version content
    else if name = "TAG".toList then handle content
    else none
  return (token, ← last.nextLine?)

end Directive

end SqlMaps.Yaml
