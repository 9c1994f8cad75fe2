import SqlMaps.Yaml.Cursor

/-! Scalars that are written as blocks of lines.

The lines of a block have its indentation. In a literal block every break is kept; in a
folded one a single break between two lines is read as a space, unless one of the lines
begins with a space. -/
namespace SqlMaps.Yaml.Block

/-- How the breaks at the end of a block are kept: none, one, or all. -/
inductive Chomp where
  | strip
  | clip
  | keep
  deriving DecidableEq

/-- The sign of a way to keep breaks. -/
def chomp? : Option Char → Option Chomp
  | some '-' => some .strip
  | some '+' => some .keep
  | _ => none

/-- The width of an indentation, if one is written here. It is never zero. -/
def width? (c : Cursor) : Option (Option Nat × Cursor) :=
  match c.next? with
  | some d =>
    if d == '0' then none
    else if d.isDigit then some (some (d.toNat - '0'.toNat), c.skip 1)
    else some (none, c)
  | none => some (none, c)

/-- The marks after the bar of a block, in either order: the width of its indentation if
given, and how its breaks are kept. -/
def header (c : Cursor) : Option (Option Nat × Chomp × Cursor) := do
  match chomp? c.next? with
  | some chomp =>
    let (width, after) ← width? (c.skip 1)
    return (width, chomp, ← after.nextLine?)
  | none =>
    let (width, after) ← width? c
    match chomp? after.next? with
    | some chomp => return (width, chomp, ← (after.skip 1).nextLine?)
    | none => return (width, .clip, ← after.nextLine?)

/-- The breaks of empty lines, the column of the deepest one, and the place on the line
that follows, behind its indentation. As long as the indentation is not known, every
space belongs to it; a tab never does. -/
def emptyLines (indent : Option Nat) (deepest : Nat) (p : Place) :
    List Char → Option (List Char × Nat × Cursor)
  | [] => some ([], max deepest p.column, ⟨p, []⟩)
  | c :: rest =>
    let within := indent.all (p.column < ·)
    if within && c == ' ' then emptyLines indent deepest (p.after c) rest
    else if within && c == '\t' then none
    else if isBreak c then do
      let (breaks, column, after) ← emptyLines indent (max deepest p.column) (p.after c) rest
      return (c :: breaks, column, after)
    else some ([], max deepest p.column, ⟨p, c :: rest⟩)

/-- What stands before a line: the break of the line before, whether that line begins
with a space, and the breaks of the empty lines between. -/
structure Joint where
  lineBreak : List Char
  spaced : Bool
  empty : List Char

/-- What a joint is read as before a line that begins with a space or not. -/
def Joint.text (folded : Bool) (j : Joint) (spaced : Bool) : List Char :=
  if folded && j.lineBreak == ['\n'] && !j.spaced && !spaced then
    if j.empty.isEmpty then [' '] else j.empty
  else j.lineBreak ++ j.empty

/-- The lines of a block on the indentation, and what stands behind the last one. -/
def lines (folded : Bool) (indent : Nat) :
    Nat → Joint → Cursor → Option (List Char × Joint × Cursor)
  | 0, _, _ => none
  | fuel + 1, before, c =>
    if c.column = indent && !c.rest.isEmpty then do
      let spaced := c.next?.any isSpace
      let (line, lineEnd) := c.span fun d => !isBreak d
      let next := lineEnd.skip 1
      let (empty, _, after) ← emptyLines (some indent) 0 next.place next.rest
      let (more, last, behind) ←
        lines folded indent fuel ⟨lineEnd.rest.take 1, spaced, empty⟩ after
      return (before.text folded spaced ++ line ++ more, last, behind)
    else some ([], before, c)

/-- The block whose bar stands here. The floor is the least column that its lines
can have. -/
def read (folded : Bool) (floor : Nat) (c : Cursor) : Option (List Char × Cursor) := do
  let (width, chomp, top) ← header (c.skip 1)
  let given := width.map fun n => if floor = 0 then n else floor - 1 + n
  let (empty, deepest, first) ← emptyLines given 0 top.place top.rest
  let indent := given.getD (max deepest (max floor 1))
  let (text, last, after) ← lines folded indent (first.rest.length + 1) ⟨[], false, empty⟩ first
  match chomp with
  | .strip => return (text, after)
  | .clip => return (text ++ last.lineBreak, after)
  | .keep => return (text ++ last.lineBreak ++ last.empty, after)

end SqlMaps.Yaml.Block
