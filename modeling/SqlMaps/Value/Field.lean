import SqlMaps.Value.Basic

/-! Reading a value as a field of a given type.

Each type has one reader on values. A column holds a value and is read directly; a
bean is given the text of a column and reads that text as a value (`parseField`). -/
namespace SqlMaps

/-- Why a value is no value of the wanted type. -/
inductive ReadError where
  | unexpectedNull
  | integer (cause : Number.IntegerError)
  | real (cause : Number.RealError)
  | timestamp (cause : Calendar.TimestampError)
  | unreadable (value : Value) (wanted : String)
  /-- A refusal in a bean's own words. -/
  | refused (text : String)
  deriving DecidableEq

/-- The wording of an error. -/
def ReadError.message : ReadError → String
  | .unexpectedNull => "unexpected NULL"
  | .integer cause => cause.message
  | .real cause => cause.message
  | .timestamp cause => cause.message
  | .unreadable value wanted => "cannot read " ++ value.display ++ " as " ++ wanted
  | .refused text => text

/-- Why a field could not be set. -/
inductive FieldError where
  | unknown (name : String)
  | invalid (field : String) (cause : ReadError)
  deriving DecidableEq

/-- The wording of an error. -/
def FieldError.message : FieldError → String
  | .unknown name => "unknown field: " ++ name
  | .invalid field cause => "invalid value for field '" ++ field ++ "': " ++ cause.message

/-- Whether a text says yes: `1`, `'1'` or `true` in any letter case. -/
def saysTrue (s : String) : Bool :=
  let word := Text.trim s.toList
  word == ['1'] || word == ['\'', '1', '\''] || Text.sameLetters word "true".toList

namespace Value

/-- The value as text. -/
def readText (v : Value) : Except ReadError String :=
  match v.text? with
  | some s => .ok s
  | none => .error .unexpectedNull

/-- The nearest number of 64 bits to a whole number. -/
def clampInt64 (n : Int) : Int64 :=
  Int64.ofInt (max Number.Range.int64.low (min Number.Range.int64.high n))

/-- The value as a whole number of 64 bits. A real number has to be whole. -/
def readInt64 (v : Value) : Except ReadError Int64 :=
  match v with
  | .integer n => .ok n
  | .flag b => .ok (ofFlag b)
  | .real x =>
    match x.toInt? with
    | some n => .ok (clampInt64 n)
    | none => .error (.unreadable v "an integer")
  | .text s =>
    match Number.Range.int64.read 10 (Text.trim s.toList) with
    | .ok n => .ok (Int64.ofInt n)
    | .error e => .error (.integer e)
  | .null => .error .unexpectedNull
  | v => .error (.unreadable v "an integer")

/-- The value as a whole number of 32 bits. -/
def readInt32 (v : Value) : Except ReadError Int32 := do
  let n ← v.readInt64
  let narrow ← (Number.Range.int32.check n.toInt).mapError .integer
  return Int32.ofInt narrow

/-- The value as a real number. -/
def readReal (v : Value) : Except ReadError Number.Binary64 :=
  match v with
  | .real x => .ok x
  | .integer n => .ok (Number.Binary64.ofInt n.toInt)
  | .text s =>
    match Number.Binary64.read (Text.trim s.toList) with
    | .ok x => .ok x
    | .error e => .error (.real e)
  | .null => .error .unexpectedNull
  | v => .error (.unreadable v "a real")

/-- The value as a flag: the number one, or a text that says yes. -/
def readFlag (v : Value) : Except ReadError Bool :=
  match v with
  | .flag b => .ok b
  | .integer n => .ok (n == 1)
  | .null => .error .unexpectedNull
  | v => .ok (saysTrue v.display)

/-- The value as bytes. -/
def readBytes (v : Value) : Except ReadError (List UInt8) :=
  match v with
  | .blob bytes => .ok bytes
  | .text s => .ok s.toUTF8.toList
  | .null => .error .unexpectedNull
  | v => .error (.unreadable v "bytes")

/-- The value as a timestamp. -/
def readTimestamp (v : Value) : Except ReadError Calendar.Timestamp :=
  match v with
  | .timestamp t => .ok t
  | .text s =>
    match Calendar.Timestamp.read (Text.trim s.toList) with
    | .ok t => .ok t
    | .error e => .error (.timestamp e)
  | .null => .error .unexpectedNull
  | v => .error (.unreadable v "a timestamp")

end Value

/-- The type of a field. -/
inductive FieldType where
  | text
  | int64
  | int32
  | real
  | flag
  | bytes
  | timestamp
  /-- Any value, as it is. -/
  | any
  /-- An absent value, or one of the type. -/
  | optional (type : FieldType)
  deriving DecidableEq

namespace FieldType

/-- The value as one of the type. -/
def read : FieldType → Value → Except ReadError Value
  | .text, v => .text <$> v.readText
  | .int64, v => .integer <$> v.readInt64
  | .int32, v => (fun n => .integer n.toInt64) <$> v.readInt32
  | .real, v => .real <$> v.readReal
  | .flag, v => .flag <$> v.readFlag
  | .bytes, v => .blob <$> v.readBytes
  | .timestamp, v => .timestamp <$> v.readTimestamp
  | .any, v => .ok v
  | .optional _, .null => .ok .null
  | .optional type, v => type.read v

/-- Reads the value of a column; an error names the column. -/
def readColumn (type : FieldType) (column : String) (v : Value) : Except FieldError Value :=
  (type.read v).mapError (.invalid column)

/-- Reads a field from the text of its column, which is missing when the column is null. -/
def parseField (type : FieldType) (field : String) (text : Option String) :
    Except FieldError Value :=
  type.readColumn field (text.elim .null .text)

end FieldType

end SqlMaps
