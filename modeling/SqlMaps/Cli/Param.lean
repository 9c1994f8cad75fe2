import SqlMaps.Number.RealText
import SqlMaps.Text.Blank
import SqlMaps.Text.Case
import SqlMaps.Text.Split
import SqlMaps.Value.Params

/-! Parameters of the command line: `name=value` and `name:type=value`.

The name ends at the first equals sign and the type stands behind the first colon
before it, so a value may hold both. Names and types lose the white space around them;
a text keeps its own. -/
namespace SqlMaps.Cli

/-- Why an argument is no parameter. -/
inductive ParamError where
  | noName (arg : String)
  | noValue (arg : String)
  | integer (name : String) (cause : Number.IntegerError)
  | real (name : String) (cause : Number.RealError)
  | notBoolean (name word : String)
  | notHex (name value : String)
  | unknownType (name type : String)
  deriving DecidableEq

/-- The wording of an error. -/
def ParamError.message : ParamError → String
  | .noName arg => "Parameter '" ++ arg ++ "' has no name"
  | .noValue arg => "Parameter '" ++ arg ++ "' has no value"
  | .integer name cause => "Parameter '" ++ name ++ "': " ++ cause.message
  | .real name cause => "Parameter '" ++ name ++ "': " ++ cause.message
  | .notBoolean name word => "Parameter '" ++ name ++ "': '" ++ word ++ "' is not a boolean"
  | .notHex name value =>
    "Parameter '" ++ name ++ "': '" ++ value ++ "' is not an even-length hex string"
  | .unknownType name type => "Parameter '" ++ name ++ "': unknown type '" ++ type ++ "'"

/-- The byte that a text spells as a number to the base sixteen. -/
def byteOf? (s : List Char) : Option UInt8 :=
  (Number.Range.byte.read 16 s).toOption.map fun n => UInt8.ofNat n.toNat

/-- The bytes of a text of pairs. A pair is two bytes of the text, wherever its characters end. -/
def pairsOfBytes (s : List Char) : Option (List UInt8) :=
  if Text.byteLength s % 2 = 0 then
    (List.range' 0 (Text.byteLength s / 2) 2).mapM fun offset =>
      (Text.slice? offset 2 s).bind byteOf?
  else none

/-- The bytes that a text spells, with white space around them. -/
def hexBytes (s : List Char) : Option (List UInt8) :=
  pairsOfBytes (Text.trim s)

/-- What stands before the first mark, and behind it if it occurs. -/
def cutAt (mark : Char) (s : List Char) : List Char × Option (List Char) :=
  match Text.splitAtChar mark s with
  | some (before, after) => (before, some after)
  | none => (s, none)

/-- The value of a type that a text spells. -/
def paramValue (name type : String) (raw : List Char) : Except ParamError Value :=
  match type with
  | "text" => .ok (.text (String.ofList raw))
  | "str" => .ok (.text (String.ofList raw))
  | "int" =>
    match Number.Range.int64.read 10 (Text.trim raw) with
    | .ok n => .ok (.integer (Int64.ofInt n))
    | .error e => .error (.integer name e)
  | "real" =>
    match Number.Binary64.read (Text.trim raw) with
    | .ok x => .ok (.real x)
    | .error e => .error (.real name e)
  | "bool" =>
    let word := String.ofList (Text.lowercase (Text.trim raw))
    if word = "true" ∨ word = "1" then .ok (.flag true)
    else if word = "false" ∨ word = "0" then .ok (.flag false)
    else .error (.notBoolean name word)
  | "blob" =>
    match hexBytes raw with
    | some bytes => .ok (.blob bytes)
    | none => .error (.notHex name (String.ofList raw))
  | type => .error (.unknownType name type)

/-- Reads a parameter. One of the type `null` needs no value. -/
def readParam (arg : String) : Except ParamError Param :=
  let (head, raw) := cutAt '=' arg.toList
  let (before, kind) := cutAt ':' head
  let name := Text.trimmed (String.ofList before)
  let type := match kind with
    | some kind => Text.trimmed (String.ofList kind)
    | none => "text"
  if name = "" then .error (.noName arg)
  else if type = "null" then .ok ⟨name, .null⟩
  else match raw with
    | none => .error (.noValue arg)
    | some raw => (paramValue name type raw).map (⟨name, ·⟩)

end SqlMaps.Cli
