import SqlMaps.Yaml.Character

/-! Places in a text.

What a mark means depends on where it stands: in which column, and on which line. -/
namespace SqlMaps.Yaml

/-- A place in a text: how many characters stand before it, and its line and column. -/
structure Place where
  index : Nat
  line : Nat
  column : Nat
  deriving DecidableEq

/-- The place behind a character. -/
def Place.after (p : Place) (c : Char) : Place :=
  if isBreak c then ⟨p.index + 1, p.line + 1, 0⟩ else ⟨p.index + 1, p.line, p.column + 1⟩

/-- A place in a text, and the text from there on. -/
structure Cursor where
  place : Place
  rest : List Char
  deriving DecidableEq

namespace Cursor

/-- The beginning of a text. -/
def start (text : List Char) : Cursor := ⟨⟨0, 0, 0⟩, text⟩

/-- The column of the place. -/
def column (c : Cursor) : Nat := c.place.column

/-- The character that stands here. -/
def next? (c : Cursor) : Option Char := c.rest.head?

/-- The place a number of characters further on. -/
def skip : Nat → Cursor → Cursor
  | 0, c => c
  | _ + 1, ⟨p, []⟩ => ⟨p, []⟩
  | n + 1, ⟨p, c :: rest⟩ => skip n ⟨p.after c, rest⟩

/-- The characters from a place on that satisfy the condition, and the place behind
them. -/
def spanFrom (holds : Char → Bool) (p : Place) : List Char → List Char × Cursor
  | [] => ([], ⟨p, []⟩)
  | c :: rest =>
    if holds c then
      let (more, after) := spanFrom holds (p.after c) rest
      (c :: more, after)
    else ([], ⟨p, c :: rest⟩)

/-- The characters from here on that satisfy the condition, and the place behind
them. -/
def span (holds : Char → Bool) (c : Cursor) : List Char × Cursor :=
  spanFrom holds c.place c.rest

/-- The place behind the characters that satisfy the condition. -/
def skipWhile (holds : Char → Bool) (c : Cursor) : Cursor :=
  (c.span holds).2

/-- The place behind the comment that stands here, if one does. -/
def skipComment (c : Cursor) : Cursor :=
  if c.next? = some '#' then c.skipWhile fun d => !isBreak d else c

/-- The place behind the rest of a line on which nothing but a comment may stand. -/
def nextLine? (c : Cursor) : Option Cursor :=
  let atEnd := (c.skipWhile isSpace).skipComment
  match atEnd.rest with
  | [] => some atEnd
  | d :: _ => if isBreak d then some (atEnd.skip 1) else none

/-- Whether three marks of the kind stand alone at the beginning of a line, as they do
at the beginning or at the end of a document. -/
def atDocumentMark (mark : Char) (c : Cursor) : Bool :=
  c.column == 0 && [mark, mark, mark].isPrefixOf c.rest && endsMark (c.rest.drop 3)

/-- Whether a document begins or ends here. -/
def atDocumentEdge (c : Cursor) : Bool :=
  c.atDocumentMark '-' || c.atDocumentMark '.'

end Cursor

end SqlMaps.Yaml
