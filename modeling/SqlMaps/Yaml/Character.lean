/-! The characters that YAML tells apart. -/
namespace SqlMaps.Yaml

/-- Whether a character may stand in a text. -/
def isAllowed (c : Char) : Bool :=
  let n := c.toNat
  n == 0x09 || n == 0x0A || n == 0x0D || (0x20 ≤ n && n ≤ 0x7E) || n == 0x85 ||
    (0xA0 ≤ n && n ≤ 0xFFFD) || 0x10000 ≤ n

/-- What breaks a line. -/
def isBreak (c : Char) : Bool :=
  ['\n', '\r', '\u0085', '\u2028', '\u2029'].contains c

/-- The text with one character for every line break. The separators of lines and of
paragraphs stay what they are, and any other break is a line feed. -/
def normalBreaks : List Char → List Char
  | [] => []
  | '\r' :: '\n' :: rest => '\n' :: normalBreaks rest
  | '\r' :: rest => '\n' :: normalBreaks rest
  | '\u0085' :: rest => '\n' :: normalBreaks rest
  | c :: rest => c :: normalBreaks rest

/-- A space or a tab. -/
def isSpace (c : Char) : Bool :=
  c == ' ' || c == '\t'

/-- A space, a tab or a break. -/
def isGap (c : Char) : Bool :=
  isSpace c || isBreak c

/-- Whether a mark is followed by a gap, or by the end of the text. -/
def endsMark : List Char → Bool
  | [] => true
  | c :: _ => isGap c

/-- The characters that separate and close what stands between brackets. -/
def isFlowMark (c : Char) : Bool :=
  [',', '[', ']', '\x7b', '\x7d'].contains c

/-- The characters of a name. -/
def isNameChar (c : Char) : Bool :=
  c.isAlphanum || c == '_' || c == '-'

end SqlMaps.Yaml
