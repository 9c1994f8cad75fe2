import SqlMaps.Text.Hex
import SqlMaps.Text.Quoted
import SqlMaps.Number.RealText
import SqlMaps.Calendar.Text

/-! Values: what a parameter binds and a column holds.

A value is written in two ways. Its *display* text is for reading and for
comparisons; its *literal* is how it stands in a statement, where text is quoted, a
flag is a number and a timestamp is text. `bound` is a value ready to be put into
the text of a statement by a placeholder. -/
namespace SqlMaps

/-- A parameter or column value. -/
inductive Value where
  | null
  | flag (b : Bool)
  | integer (n : Int64)
  | real (x : Number.Binary64)
  | text (s : String)
  | blob (bytes : List UInt8)
  | timestamp (t : Calendar.Timestamp)
  deriving DecidableEq, Inhabited

namespace Value

/-- Whether the value is absent. -/
def isNull (v : Value) : Bool :=
  v matches .null

/-- A flag as a number. -/
def ofFlag (b : Bool) : Int64 :=
  if b then 1 else 0

/-- Bytes as a statement literal, `X'0AFF'`. -/
def blobText (bytes : List UInt8) : String :=
  String.ofList ('X' :: '\'' :: Text.Hex.ofBytes Text.Hex.capitalDigits bytes ++ ['\''])

/-- The text for reading. -/
def display : Value → String
  | .null => "null"
  | .flag b => if b then "true" else "false"
  | .integer n => Number.intText n.toInt
  | .real x => x.displayText
  | .text s => s
  | .blob bytes => blobText bytes
  | .timestamp t => t.text

/-- The text for reading; an absent value has none. -/
def text? : Value → Option String
  | .null => none
  | v => some v.display

/-- A real number in a statement. An infinity is a literal beyond the range, and what
is no number is absent. -/
def realLiteral (x : Number.Binary64) : String :=
  match x.shape with
  | .nan => "NULL"
  | .infinite negative => if negative then "-9e999" else "9e999"
  | .finite .. => x.literalText

/-- The value as it stands in a statement. -/
def literal : Value → String
  | .null => "NULL"
  | .flag b => Number.intText (ofFlag b).toInt
  | .integer n => Number.intText n.toInt
  | .real x => realLiteral x
  | .text s => Text.Quoted.enclosed '\'' s
  | .blob bytes => blobText bytes
  | .timestamp t => Text.Quoted.enclosed '\'' t.text

/-- The value prepared for a placeholder: quotes inside text are doubled, a flag is a
number and a timestamp is text. -/
def bound : Value → Value
  | .text s => .text (String.ofList (Text.Quoted.double '\'' s.toList))
  | .flag b => .integer (ofFlag b)
  | .timestamp t => .text t.text
  | v => v

/-- Equality of what is denoted: real numbers are compared as numbers. -/
def equals : Value → Value → Bool
  | .real x, .real y => x.equals y
  | v, w => v == w

end Value

end SqlMaps
