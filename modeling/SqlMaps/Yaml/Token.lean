/-! The words that a YAML text is made of: scalars, and the marks that nest them.

The marks between brackets stand in the text. The marks of blocks stand for the columns
of their lines. -/
namespace SqlMaps.Yaml

/-- How a scalar is written. -/
inductive Style where
  | plain
  | single
  | double
  /-- A block whose lines are kept. -/
  | literal
  /-- A block whose lines are joined. -/
  | folded
  deriving DecidableEq, Inhabited

/-- The bytes of a tag, or of the beginning of one. -/
abbrev Uri := List UInt8

/-- The bytes of a name in ASCII. -/
def Uri.ofName (name : List Char) : Uri :=
  name.map fun c => UInt8.ofNat c.toNat

/-- A word of a YAML text. -/
inductive Token where
  /-- The version that a document is written in. -/
  | version (major minor : Nat)
  /-- What a handle stands for at the beginning of a tag. -/
  | handle (name : List Char) (uri : Uri)
  | documentStart
  | documentEnd
  | blockSequence
  | blockMapping
  | blockEnd
  | flowSequence
  | flowSequenceEnd
  | flowMapping
  | flowMappingEnd
  /-- What begins an item of a block sequence. -/
  | item
  | comma
  | key
  | value
  /-- A node is given the number that its anchor stands for. -/
  | anchor (number : Nat)
  /-- The node of that number stands here again. -/
  | aliasOf (number : Nat)
  | tag (handle : List Char) (uri : Uri)
  | scalar (style : Style) (text : String)
  deriving DecidableEq

end SqlMaps.Yaml
