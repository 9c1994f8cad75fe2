import SqlMaps.Number.Integer

/-! JSON for reading: one item a line, two spaces deeper inside a list or an object. -/
namespace SqlMaps.Cli

/-- A JSON value. -/
inductive Json where
  | text (s : String)
  | number (n : Int)
  | flag (b : Bool)
  | list (items : List Json)
  /-- The names of the fields, and their values in the same order. -/
  | object (names : List String) (values : List Json)

namespace Json

/-- A character inside a string. -/
def escape (c : Char) : List Char :=
  match c with
  | '"' => ['\\', '"']
  | '\\' => ['\\', '\\']
  | '\x08' => ['\\', 'b']
  | '\x0c' => ['\\', 'f']
  | '\n' => ['\\', 'n']
  | '\r' => ['\\', 'r']
  | '\t' => ['\\', 't']
  | c =>
    if c.toNat < 0x20 then
      '\\' :: 'u' :: '0' :: '0' :: (if c.toNat < 0x10 then ['0'] else []) ++ Nat.toDigits 16 c.toNat
    else [c]

/-- A string between quotes. -/
def quoted (s : String) : List Char :=
  '"' :: s.toList.flatMap escape ++ ['"']

/-- Lines between an opening and a closing bracket. -/
def bracketed (opening closing : Char) (depth : Nat) (items : List (List Char)) : List Char :=
  if items.isEmpty then [opening, closing]
  else
    let indent := List.replicate (depth + 2) ' '
    opening :: '\n' :: List.intercalate [',', '\n'] (items.map (indent ++ ·)) ++
      '\n' :: List.replicate depth ' ' ++ [closing]

mutual

/-- The text of a value whose brackets stand at the depth. -/
def write (depth : Nat) : Json → List Char
  | .text s => quoted s
  | .number n => Number.ofInt n
  | .flag b => if b then "true".toList else "false".toList
  | .list items => bracketed '[' ']' depth (writeAll (depth + 2) items)
  | .object names values =>
    let fields := (names.zip (writeAll (depth + 2) values)).map fun (name, value) =>
      quoted name ++ ':' :: ' ' :: value
    bracketed '\x7b' '\x7d' depth fields

/-- The texts of values. -/
def writeAll (depth : Nat) : List Json → List (List Char)
  | [] => []
  | item :: items => write depth item :: writeAll depth items

end

/-- The text of a value. -/
def pretty (j : Json) : String :=
  String.ofList (write 0 j)

end Json

end SqlMaps.Cli
