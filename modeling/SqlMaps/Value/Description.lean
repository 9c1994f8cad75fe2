import SqlMaps.Text.Shown
import SqlMaps.Value.Basic

/-! How a fault describes a value it did not expect: its type, and its content in a
form that shows every character. -/
namespace SqlMaps

namespace Text

/-- A character inside a quoted description. -/
def describeChar (c : Char) : List Char :=
  match c with
  | '\x00' => ['\\', '0']
  | '\t' => ['\\', 't']
  | '\n' => ['\\', 'n']
  | '\r' => ['\\', 'r']
  | '"' => ['\\', '"']
  | '\\' => ['\\', '\\']
  | c =>
    if shows c then [c]
    else ['\\', 'u', '\x7b'] ++ Nat.toDigits 16 c.toNat ++ ['\x7d']

/-- A text between quotes, with what does not show written out. -/
def described (s : String) : String :=
  String.ofList ('"' :: s.toList.flatMap describeChar ++ ['"'])

end Text

namespace Calendar

/-- The fraction of a second, in groups of three digits, without a group of zeros at
its end. -/
def fractionText (nano : Nat) : List Char :=
  let padded (width n : Nat) : List Char :=
    let ds := Number.digits n
    List.replicate (width - ds.length) '0' ++ ds
  if nano = 0 then []
  else if nano % 1000000 = 0 then '.' :: padded 3 (nano / 1000000)
  else if nano % 1000 = 0 then '.' :: padded 6 (nano / 1000)
  else '.' :: padded 9 nano

/-- A timestamp with its date and its time joined, to the last nanosecond. -/
def Timestamp.described (t : Timestamp) : String :=
  let joined := t.write.map fun c => if c = ' ' then 'T' else c
  String.ofList (joined ++ fractionText (t.time.nano % 1000000000))

end Calendar

namespace Value

/-- The value with its type. -/
def described : Value → String
  | .null => "Null"
  | .flag b => if b then "Bool(true)" else "Bool(false)"
  | .integer n => "Integer(" ++ Number.intText n.toInt ++ ")"
  | .real x => "Real(" ++ x.literalText ++ ")"
  | .text s => "Text(" ++ Text.described s ++ ")"
  | .blob bytes =>
    "Blob([" ++ ", ".intercalate (bytes.map fun b => Number.intText b.toNat) ++ "])"
  | .timestamp t => "Timestamp(" ++ t.described ++ ")"

/-- A value that may be missing. -/
def describedOption : Option Value → String
  | none => "None"
  | some v => "Some(" ++ v.described ++ ")"

end Value

end SqlMaps
