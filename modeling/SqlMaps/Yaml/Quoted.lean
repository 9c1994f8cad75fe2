import SqlMaps.Text.Hex
import SqlMaps.Yaml.Plain

/-! Scalars in quotes.

Between single quotes a quote is written twice, and nothing else is special. Between
double quotes a backslash begins the name of a character, or takes the break behind it
away. -/
namespace SqlMaps.Yaml.Quoted

/-- The character of a number of hexadecimal digits, and their number. -/
def hexEscape (digits : Nat) (s : List Char) : Option (Char × Nat) := do
  guard (digits ≤ s.length)
  let n ← Text.Hex.value? (s.take digits)
  guard n.isValidChar
  return (Char.ofNat n, digits + 1)

/-- The character that stands after a backslash, and how long its name is. -/
def escape : List Char → Option (Char × Nat)
  | '0' :: _ => some ('\x00', 1)
  | 'a' :: _ => some ('\x07', 1)
  | 'b' :: _ => some ('\x08', 1)
  | 't' :: _ => some ('\t', 1)
  | '\t' :: _ => some ('\t', 1)
  | 'n' :: _ => some ('\n', 1)
  | 'v' :: _ => some ('\x0b', 1)
  | 'f' :: _ => some ('\x0c', 1)
  | 'r' :: _ => some ('\r', 1)
  | 'e' :: _ => some ('\x1b', 1)
  | ' ' :: _ => some (' ', 1)
  | '"' :: _ => some ('"', 1)
  | '/' :: _ => some ('/', 1)
  | '\\' :: _ => some ('\\', 1)
  | 'N' :: _ => some ('\u0085', 1)
  | '_' :: _ => some ('\u00a0', 1)
  | 'L' :: _ => some ('\u2028', 1)
  | 'P' :: _ => some ('\u2029', 1)
  | 'x' :: rest => hexEscape 2 rest
  | 'u' :: rest => hexEscape 4 rest
  | 'U' :: rest => hexEscape 8 rest
  | _ => none

/-- What stands next in a scalar between quotes. -/
inductive Piece where
  | text (s : List Char) (after : Cursor)
  | close (after : Cursor)

/-- The next piece of a scalar between quotes of the kind. Breaks behind a backslash are
kept, but for the first one. -/
def piece (quote : Char) (c : Cursor) : Option Piece :=
  match c.rest with
  | [] => none
  | d :: rest =>
    if d == quote then
      if quote == '\'' && rest.head? = some '\'' then some (.text ['\''] (c.skip 2))
      else some (.close (c.skip 1))
    else if isGap d then do
      let (gap, after) ← Gap.read 0 false c.place c.rest
      return .text gap.text after
    else if d == '\\' && quote == '"' then
      if rest.head?.any isBreak then do
        let behind := c.skip 2
        let (gap, after) ← Gap.read 0 true behind.place behind.rest
        return .text gap.breaks after
      else do
        let (e, length) ← escape rest
        return .text [e] (c.skip (length + 1))
    else some (.text [d] (c.skip 1))

/-- The rest of a scalar between quotes of the kind. No document may begin or end
in it. -/
def body (quote : Char) : Nat → Cursor → Option (List Char × Cursor)
  | 0, _ => none
  | fuel + 1, c =>
    if c.atDocumentEdge then none
    else do
      match ← piece quote c with
      | .close after => return ([], after)
      | .text s after =>
        let (more, last) ← body quote fuel after
        return (s ++ more, last)

/-- The scalar whose opening quote stands here. -/
def read (quote : Char) (c : Cursor) : Option (List Char × Cursor) :=
  body quote (c.rest.length + 1) (c.skip 1)

end SqlMaps.Yaml.Quoted
