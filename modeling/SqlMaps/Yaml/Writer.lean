import SqlMaps.Text.Hex
import SqlMaps.Text.Split
import SqlMaps.Yaml.Character
import SqlMaps.Yaml.Scalar
import SqlMaps.Yaml.Token

/-! Writing YAML.

A text is written in the plainest style in which it reads back as itself: plainly, in
single quotes, in double quotes, or as a literal block when it holds a line break. -/
namespace SqlMaps.Yaml

/-- What is written as it is. -/
def isPrintable (c : Char) : Bool :=
  let n := c.toNat
  n == 0x0A || (0x20 ≤ n && n ≤ 0x7E) || (0xA0 ≤ n && n ≤ 0xFFFD && n != 0xFEFF) ||
    0x10000 ≤ n

/-- Whether a character, between the one before and the one after, would be read as
markup. -/
def isIndicator (before after : Option Char) (c : Char) : Bool :=
  let gapBefore := before.all isGap
  let gapAfter := after.all isGap
  let first := before.isNone
  (first && (isFlowMark c ||
      ['#', '&', '*', '!', '|', '>', '\'', '"', '%', '@', '\x60'].contains c)) ||
    (first && (c == '?' || c == '-') && gapAfter) || (c == ':' && gapAfter) ||
    (c == '#' && gapBefore)

/-- Whether any character would be read as markup. -/
def hasIndicator : Option Char → List Char → Bool
  | _, [] => false
  | before, c :: rest => isIndicator before rest.head? c || hasIndicator (some c) rest

/-- Whether two characters that satisfy the conditions stand side by side. -/
def hasPair (p q : Char → Bool) (s : List Char) : Bool :=
  (s.zip s.tail).any fun (c, d) => p c && q d

/-- Whether the text has a character that has to be escaped, or a space before a
break. -/
def needsEscape (s : List Char) : Bool :=
  !s.all isPrintable || hasPair (· == ' ') isBreak s

/-- Whether the text can be written plainly. -/
def allowsPlain (s : List Char) : Bool :=
  let atEnds (p : Char → Bool) : Bool := s.head?.any p || s.getLast?.any p
  !(atEnds fun c => c == ' ' || isBreak c) && !needsEscape s && !s.any isBreak &&
    !hasIndicator none s && !"---".toList.isPrefixOf s && !"...".toList.isPrefixOf s

/-- Whether the text can be written in single quotes. -/
def allowsSingle (s : List Char) : Bool :=
  !needsEscape s && !hasPair isBreak (· == ' ') s

/-- Whether the text can be written as a block. -/
def allowsBlock (s : List Char) : Bool :=
  !s.isEmpty && !needsEscape s && s.getLast? != some ' '

/-- The style that a text is written in. A key that stands on the line of its value is
never a block. -/
def styleOf (inKey : Bool) (s : String) : Style :=
  let cs := s.toList
  if cs.contains '\n' then if !inKey && allowsBlock cs then .literal else .double
  else if !readsOtherwise s && allowsPlain cs then .plain
  else if allowsSingle cs then .single
  else .double

/-- A character inside double quotes. -/
def escaped (c : Char) : List Char :=
  let hex (mark : Char) (width : Nat) : List Char :=
    let digits := (Nat.toDigits 16 c.toNat).map Char.toUpper
    '\\' :: mark :: List.replicate (width - digits.length) '0' ++ digits
  match c with
  | '\x00' => ['\\', '0']
  | '\x07' => ['\\', 'a']
  | '\x08' => ['\\', 'b']
  | '\t' => ['\\', 't']
  | '\n' => ['\\', 'n']
  | '\x0b' => ['\\', 'v']
  | '\x0c' => ['\\', 'f']
  | '\r' => ['\\', 'r']
  | '\x1b' => ['\\', 'e']
  | '"' => ['\\', '"']
  | '\\' => ['\\', '\\']
  | '\u0085' => ['\\', 'N']
  | '\u2028' => ['\\', 'L']
  | '\u2029' => ['\\', 'P']
  | c =>
    if isPrintable c then [c]
    else if c.toNat ≤ 0xFF then hex 'x' 2
    else if c.toNat ≤ 0xFFFF then hex 'u' 4
    else hex 'U' 8

/-- Spaces for an indentation. -/
def spaces (n : Nat) : List Char :=
  List.replicate n ' '

/-- The marks of a literal block: its indentation when that cannot be seen, and how the
breaks at its end are kept. -/
def blockMarks (s : List Char) : List Char :=
  let hint := if s.head?.any fun c => c == ' ' || isBreak c then ['2'] else []
  let chomp := match s.reverse with
    | c :: d :: _ => if isBreak c then if isBreak d then ['+'] else [] else ['-']
    | [c] => if isBreak c then ['+'] else ['-']
    | [] => ['-']
  hint ++ chomp

/-- A text in lines, each on the indentation; empty lines stay empty. `fresh` says that a
line begins here. -/
def indented (indent : Nat) : Bool → List Char → List Char
  | _, [] => []
  | fresh, c :: rest =>
    if isBreak c then c :: indented indent true rest
    else (if fresh then spaces indent else []) ++ c :: indented indent false rest

/-- A text between single quotes. A quote in it is written twice, and the closing quote
stands on the indentation if it begins a line. -/
def singleQuoted (indent : Nat) (s : List Char) : List Char :=
  let doubled := s.flatMap fun c => if c == '\'' then [c, c] else [c]
  '\'' :: indented indent false (doubled ++ ['\''])

/-- A text as a scalar on the indentation of what it stands in. -/
def scalar (inKey : Bool) (indent : Nat) (s : String) : List Char :=
  match styleOf inKey s with
  | .plain => s.toList
  | .single => singleQuoted (indent + 2) s.toList
  | .double => '"' :: s.toList.flatMap escaped ++ ['"']
  | .literal | .folded =>
    '|' :: blockMarks s.toList ++ '\n' :: indented (indent + 2) true s.toList

/-- The lines with a break at their end, if they have none. -/
def endLine (s : List Char) : List Char :=
  if s.getLast?.any isBreak then s else s ++ ['\n']

/-- An entry of a mapping on the indentation: its key and what is written behind the
colon. A key that needs lines of its own is marked. -/
def entry (indent : Nat) (key : String) (value : Bool → List Char) : List Char :=
  let written := scalar true indent key
  if key.toList.any isBreak || Text.byteLength key.toList > 128 then
    endLine (spaces indent ++ ['?', ' '] ++ scalar false indent key) ++
      spaces indent ++ ':' :: value true
  else spaces indent ++ written ++ ':' :: value false

/-- A single word as a value. -/
def wordValue (word : String) (_ : Bool) : List Char :=
  ' ' :: word.toList ++ ['\n']

/-- A text as a value. -/
def textValue (indent : Nat) (s : String) (_ : Bool) : List Char :=
  endLine (' ' :: scalar false indent s)

/-- A sequence of texts as a value: its dashes stand in the column of the key, or right
of the colon when that begins the line. -/
def sequenceValue (indent : Nat) (items : List String) (marked : Bool) : List Char :=
  match items with
  | [] => " []\n".toList
  | items =>
    let column := if marked then indent + 2 else indent
    let lines := items.map fun s => endLine (spaces column ++ '-' :: ' ' :: scalar false column s)
    if marked then ' ' :: lines.flatten.drop column else '\n' :: lines.flatten

/-- A mapping as a value, its entries written by `each` on a deeper indentation. -/
def mappingValue (indent : Nat) (each : Nat → α → List Char) (entries : List α) (_ : Bool) :
    List Char :=
  match entries with
  | [] => [' ', '\x7b', '\x7d', '\n']
  | entries => '\n' :: entries.flatMap (each (indent + 2))

end SqlMaps.Yaml
