import SqlMaps.Text.Blank
import SqlMaps.Number.Integer
import SqlMaps.Calendar.Timestamp

/-! Timestamps as text, `2024-03-09 14:05:07`.

The writer pads every field, and puts a sign before a year outside 0 to 9999. The
reader is wider: fields need no padding, white space may stand before each of them,
and a year after a sign may have any number of digits. Fractions of a second are
not written. -/
namespace SqlMaps.Calendar

/-- The digits of a number, with zeros before them up to the width. -/
def padded (width n : Nat) : List Char :=
  let ds := Number.digits n
  List.replicate (width - ds.length) '0' ++ ds

/-- A year with four digits at least, and a sign outside 0 to 9999. -/
def yearText (year : Int) : List Char :=
  if 0 ≤ year ∧ year ≤ 9999 then padded 4 year.toNat
  else (if year < 0 then '-' else '+') :: padded 4 year.natAbs

/-- The text of a timestamp. -/
def Timestamp.write (t : Timestamp) : List Char :=
  yearText t.date.year ++ '-' :: padded 2 t.date.month ++ '-' :: padded 2 t.date.day ++
    ' ' :: padded 2 t.time.hour ++ ':' :: padded 2 t.time.minute ++
    ':' :: padded 2 t.time.clockSecond

/-- `Timestamp.write` as a string. -/
def Timestamp.text (t : Timestamp) : String :=
  String.ofList t.write

/-- Why a text is no timestamp. -/
inductive TimestampError where
  | badCharacter
  | tooShort
  | tooLong
  | outOfRange
  deriving DecidableEq

/-- The wording of an error. -/
def TimestampError.message : TimestampError → String
  | .badCharacter => "input contains invalid characters"
  | .tooShort => "premature end of input"
  | .tooLong => "trailing input"
  | .outOfRange => "input is out of range"

namespace Timestamp

/-- A step of the reader: it takes what it reads off the head of the text. -/
abbrev Reader := StateT (List Char) (Except TimestampError)

/-- Passes over white space. -/
def skipBlanks : Reader Unit :=
  modify Text.trimStart

/-- Reads up to `width` digits. -/
def readDigits (width : Nat) : Reader Nat := do
  let s ← get
  let ds := (s.take width).takeWhile Char.isDigit
  if ds.isEmpty then throw (if s.isEmpty then .tooShort else .badCharacter)
  let n := Nat.ofDigitChars 10 ds 0
  if (n : Int) > Number.Range.int64.high then throw .outOfRange
  set (s.drop ds.length)
  return n

/-- Reads a character that has to stand here. -/
def readMark (mark : Char) : Reader Unit := do
  match ← get with
  | [] => throw .tooShort
  | c :: rest => if c = mark then set rest else throw .badCharacter

/-- Reads a field of up to two digits that lies in the range. -/
def readField (low high : Nat) : Reader Nat := do
  skipBlanks
  let n ← readDigits 2
  if low ≤ n ∧ n ≤ high then return n else throw .outOfRange

/-- Reads a year: up to four digits, or a sign and any number of them. -/
def readYear : Reader Int := do
  skipBlanks
  let year ← match ← get with
    | '-' :: rest => do
      set rest
      let n ← readDigits rest.length
      pure (-(n : Int))
    | '+' :: rest => do
      set rest
      let n ← readDigits rest.length
      pure (n : Int)
    | _ => do
      let n ← readDigits 4
      pure (n : Int)
  if Number.Range.int32.low ≤ year ∧ year ≤ Number.Range.int32.high then return year
  else throw .outOfRange

/-- Reads the fields of a timestamp, and the day and time they name. -/
def reader : Reader Timestamp := do
  let year ← readYear
  readMark '-'
  let month ← readField 1 12
  readMark '-'
  let day ← readField 1 31
  skipBlanks
  let hour ← readField 0 23
  readMark ':'
  let minute ← readField 0 59
  readMark ':'
  let second ← readField 0 60
  unless (← get).isEmpty do throw .tooLong
  match Date.of? year month day, Time.ofClock? hour minute second with
  | some date, some time => return ⟨date, time⟩
  | _, _ => throw .outOfRange

/-- Reads a timestamp that takes the whole text. -/
def read (s : List Char) : Except TimestampError Timestamp :=
  reader.run' s

end Timestamp

end SqlMaps.Calendar
