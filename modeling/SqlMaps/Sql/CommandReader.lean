import SqlMaps.Sql.Command
import SqlMaps.Text.Split

/-! Reading the library's own statements back from their text.

Each part is read from the left: names between double quotes, values as literals, and
the words between them exactly as they are written. -/
namespace SqlMaps.Sql

/-- A reader takes a part off the head of a text and leaves the rest. -/
abbrev Reader (α : Type) := List Char → Option (α × List Char)

/-- Reads a word. -/
def readWord (word : String) : Reader Unit := fun s =>
  (Text.dropWord word.toList s).map ((), ·)

/-- Reads text between quotes. -/
def readQuoted (quote : Char) : Reader String
  | c :: rest =>
    if c = quote then
      (Text.Quoted.takeBody quote rest).map fun (body, rest) => (String.ofList body, rest)
    else none
  | [] => none

/-- Reads a name. -/
def readIdentifier : Reader String := readQuoted '"'

/-- Whether a character can stand in a number. -/
def isNumberChar (c : Char) : Bool :=
  c.isDigit || c == '-' || c == '.' || c == 'e'

/-- Reads a number: whole if it has neither a point nor an exponent. -/
def readNumber : Reader Value := fun s =>
  let digits := s.takeWhile isNumberChar
  let value := if digits.contains '.' || digits.contains 'e' then
      (Number.Binary64.read digits).toOption.map Value.real
    else (Number.Range.int64.read 10 digits).toOption.map fun n => .integer (Int64.ofInt n)
  value.map (·, s.dropWhile isNumberChar)

/-- Reads a literal. -/
def readLiteral : Reader Value := fun s =>
  match s with
  | '\'' :: _ => (readQuoted '\'' s).map fun (t, rest) => (.text t, rest)
  | 'X' :: rest => do
    let (digits, rest) ← readQuoted '\'' rest
    return (.blob (← Text.Hex.bytes? digits.toList), rest)
  | 'N' :: _ => (readWord "NULL" s).map fun (_, rest) => (.null, rest)
  | s => readNumber s

/-- Reads a whole number of 64 bits, up to the end of the text. -/
def readInteger : Reader Int64 := fun s =>
  match Number.Range.int64.read 10 s with
  | .ok n => some (Int64.ofInt n, [])
  | .error _ => none

/-- Reads an assignment. -/
def readAssignment : Reader (String × Value) := fun s => do
  let (column, rest) ← readIdentifier s
  let (_, rest) ← readWord " = " rest
  let (value, rest) ← readLiteral rest
  return ((column, value), rest)

/-- Reads parts separated by a comma and a space, at most as many as `most`. -/
def readList (most : Nat) (part : Reader α) : Reader (List α) := fun s =>
  match most with
  | 0 => none
  | most + 1 => do
    let (a, rest) ← part s
    match readWord ", " rest with
    | none => return ([a], rest)
    | some (_, rest) =>
      let (more, rest) ← readList most part rest
      return (a :: more, rest)

/-- Reads parts separated by a comma and a space. -/
def readCommaList (part : Reader α) : Reader (List α) := fun s =>
  readList (s.length + 1) part s

/-- Reads the end of a text. -/
def readEnd (s : List Char) : Option Unit :=
  if s.isEmpty then some () else none

/-! ### Statements -/

/-- The statements without names and values in them. -/
def fixedCommands : List Command :=
  TransactionMode.all.map .begin ++ [.commit, .rollback, .readVersion, .vacuum, .tableNames]

/-- Reads a statement that sets the version. -/
def readSetVersion (s : List Char) : Option Command := do
  let (_, rest) ← readWord "PRAGMA user_version = " s
  let (version, _) ← readInteger rest
  return .setVersion version

/-- Reads a statement that asks about a table. -/
def readTableQuery (start finish : String) (command : String → Command) (s : List Char) :
    Option Command := do
  let (_, rest) ← readWord start s
  let (table, rest) ← readIdentifier rest
  let (_, rest) ← readWord finish rest
  readEnd rest
  return command table

/-- Reads a statement that asks for rows to copy. -/
def readCopyRows (s : List Char) : Option Command := do
  let (_, rest) ← readWord ("SELECT ROWID AS " ++ rowIdAlias ++ ", ") s
  let (columns, rest) ← readCommaList readIdentifier rest
  let (_, rest) ← readWord " FROM " rest
  let (table, rest) ← readIdentifier rest
  let (_, rest) ← readWord " ORDER BY ROWID" rest
  readEnd rest
  return .copyRows table columns

/-- Reads a statement that adds a row. -/
def readInsert (s : List Char) : Option Command := do
  let (_, rest) ← readWord "INSERT INTO " s
  let (table, rest) ← readIdentifier rest
  let (_, rest) ← readWord " (" rest
  let (columns, rest) ← readCommaList readIdentifier rest
  let (_, rest) ← readWord ") VALUES (" rest
  let (values, rest) ← readCommaList readLiteral rest
  let (_, rest) ← readWord ")" rest
  readEnd rest
  return .insert table columns values

/-- Reads a statement that changes a row. -/
def readUpdate (s : List Char) : Option Command := do
  let (_, rest) ← readWord "UPDATE " s
  let (table, rest) ← readIdentifier rest
  let (_, rest) ← readWord " SET " rest
  let (assignments, rest) ← readCommaList readAssignment rest
  let (_, rest) ← readWord " WHERE ROWID = " rest
  let (rowId, _) ← readInteger rest
  return .update table assignments rowId

/-- The statement that a text is. -/
def Command.read? (sql : String) : Option Command :=
  let s := sql.toList
  (fixedCommands.find? (·.text = sql)) <|> readSetVersion s <|>
    readTableQuery "SELECT * FROM " " LIMIT 0" .columns s <|>
    readTableQuery "SELECT COUNT(ROWID) FROM " "" .countRows s <|>
    readTableQuery "SELECT ROWID FROM " "" .rowIds s <|>
    readCopyRows s <|> readInsert s <|> readUpdate s

end SqlMaps.Sql
