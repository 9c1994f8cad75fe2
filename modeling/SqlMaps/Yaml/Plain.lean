import SqlMaps.Yaml.Cursor

/-! Plain scalars, and the gaps between their words.

A gap within a line is kept. Where lines break, a single break is read as a space, and
of several the first is dropped. -/
namespace SqlMaps.Yaml

/-- What stands between two words: spaces, and the breaks of lines. -/
structure Gap where
  spaces : List Char
  breaks : List Char
  deriving DecidableEq

namespace Gap

/-- Nothing between two words. -/
def empty : Gap := ⟨[], []⟩

/-- Whether a line ends in the gap. -/
def crosses (g : Gap) : Bool := !g.breaks.isEmpty

/-- What the gap is read as. The separators of lines and of paragraphs are never
dropped. -/
def text (g : Gap) : List Char :=
  match g.breaks with
  | [] => g.spaces
  | ['\n'] => [' ']
  | '\n' :: more => more
  | breaks => breaks

/-- The gap that begins at a place. `crossed` says that a line has ended before, and the
floor is the column that a tab may not stand left of. -/
def read (floor : Nat) (crossed : Bool) (p : Place) : List Char → Option (Gap × Cursor)
  | [] => some (Gap.empty, ⟨p, []⟩)
  | c :: rest =>
    if isBreak c then do
      let (g, after) ← read floor true (p.after c) rest
      return ({ g with breaks := c :: g.breaks }, after)
    else if isSpace c then
      if crossed && c == '\t' && p.column < floor then none
      else do
        let (g, after) ← read floor crossed (p.after c) rest
        return (if crossed then g else { g with spaces := c :: g.spaces }, after)
    else some (Gap.empty, ⟨p, c :: rest⟩)

end Gap

namespace Plain

/-- The characters that begin something else than a plain scalar. -/
def isMark (c : Char) : Bool :=
  isFlowMark c || ['#', '&', '*', '!', '|', '>', '\'', '"', '%', '@', '\x60'].contains c

/-- Whether a plain scalar can begin here. A dash needs something behind it, and so do
the marks of keys and values; between brackets these two begin none. -/
def begins (flow : Bool) : List Char → Bool
  | [] => false
  | c :: rest =>
    if c == '-' then !rest.head?.any isSpace
    else if c == '?' || c == ':' then !flow && !endsMark rest
    else !isMark c && !isGap c

/-- Whether a colon stands before a mark that makes it a fault between brackets. -/
def misplacedColon : List Char → Bool
  | ':' :: c :: _ => isFlowMark c || c == '?'
  | _ => false

/-- A word up to a gap or to a colon before one; between brackets also up to a comma or
a bracket. -/
def word (flow : Bool) (p : Place) : List Char → Option (List Char × Cursor)
  | [] => some ([], ⟨p, []⟩)
  | c :: rest =>
    if flow && misplacedColon (c :: rest) then none
    else if isGap c || (c == ':' && endsMark rest) || (flow && isFlowMark c) then
      some ([], ⟨p, c :: rest⟩)
    else do
      let (more, after) ← word flow (p.after c) rest
      return (c :: more, after)

/-- The words from here on, with the gap before them; whether a line has ended behind
the last one; and the place that is reached. Each line has to begin at the floor or
further right, unless it stands between brackets. -/
def words (flow : Bool) (floor : Nat) : Nat → Gap → Cursor → Option (List Char × Bool × Cursor)
  | 0, _, _ => none
  | fuel + 1, before, c =>
    if c.atDocumentEdge || c.next? = some '#' then some ([], before.crosses, c)
    else do
      let (first, behind) ← word flow c.place c.rest
      if first.isEmpty then return ([], before.crosses, behind)
      else
        let (gap, next) ← Gap.read floor false behind.place behind.rest
        if !flow && next.column < floor then
          return (before.text ++ first, gap.crosses, next)
        else
          let (more, crossed, last) ← words flow floor fuel gap next
          return (before.text ++ first ++ more, crossed, last)

/-- The plain scalar that begins here. -/
def read (flow : Bool) (floor : Nat) (c : Cursor) : Option (List Char × Bool × Cursor) :=
  words flow floor (c.rest.length + 1) Gap.empty c

end Plain

end SqlMaps.Yaml
