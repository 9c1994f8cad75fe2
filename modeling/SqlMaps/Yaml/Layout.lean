import SqlMaps.Yaml.Block
import SqlMaps.Yaml.Quoted
import SqlMaps.Yaml.Tag

/-! The tokens of a text.

A block begins where a dash or a key stands further right than those around it, and ends
where a line begins further left. That a token begins a key is known only when a colon
follows; then the mark of the key is put before it. The colon has to stand on the same
line, and not too far off. -/
namespace SqlMaps.Yaml

/-- A token that becomes a key if a colon follows. -/
structure KeyStart where
  place : Place
  /-- How many tokens stand before it. -/
  before : Nat
  /-- Whether it has to be a key, as what stands in the column of the keys of a
  block. -/
  required : Bool
  deriving DecidableEq

/-- What has been read of a text. -/
structure Layout where
  cursor : Cursor
  tokens : Array Token
  /-- The columns of the open blocks, the innermost first. -/
  columns : List Nat
  /-- What may become a key within the innermost bracket. -/
  pending : Option KeyStart
  /-- What may become a key within each bracket around it, and in the block. -/
  outer : List (Option KeyStart)
  /-- Whether a key may begin here. -/
  keyAllowed : Bool
  /-- The names of anchors, with the number that each stands for now. -/
  names : List (List Char × Nat)

namespace Layout

/-- How far a colon may stand from the beginning of its key. -/
def keyReach : Nat := 1024

/-- Nothing has been read yet. -/
def start (text : List Char) : Layout := ⟨.start text, #[], [], none, [], true, []⟩

/-- Whether the place stands between brackets. -/
def flow (s : Layout) : Bool := !s.outer.isEmpty

/-- The least column of what belongs to the innermost block. -/
def floor (s : Layout) : Nat :=
  match s.columns with
  | [] => 0
  | column :: _ => column + 1

/-- With a token behind the others. -/
def push (s : Layout) (t : Token) : Layout :=
  { s with tokens := s.tokens.push t }

/-- With a token put in where a number of tokens stand before it. -/
def insert (s : Layout) (before : Nat) (t : Token) : Layout :=
  { s with tokens := s.tokens.extract 0 before ++ #[t] ++ s.tokens.extract before s.tokens.size }

/-- At another place. -/
def moved (s : Layout) (c : Cursor) : Layout :=
  { s with cursor := c }

/-! ### Gaps -/

/-- Skips spaces, breaks and comments. Where a key may begin, a tab is no space. A break
outside of brackets allows a key. -/
def skipGap : Nat → Layout → Layout
  | 0, s => s
  | fuel + 1, s =>
    let c := if s.cursor.column = 0 && s.cursor.next? = some '\uFEFF' then s.cursor.skip 1
      else s.cursor
    let tabs := s.flow || !s.keyAllowed
    let c := (c.skipWhile fun d => d == ' ' || (tabs && d == '\t')).skipComment
    if c.next?.any isBreak then
      skipGap fuel { s with cursor := c.skip 1, keyAllowed := s.keyAllowed || !s.flow }
    else s.moved c

/-! ### Keys -/

/-- Whether a colon can still make a key of what began at a place. -/
def reaches (s : Layout) (k : KeyStart) : Bool :=
  k.place.line == s.cursor.place.line && s.cursor.place.index ≤ k.place.index + keyReach

/-- What may become a key, unless it is out of reach; it is a fault if it had to
become one. -/
def kept? (s : Layout) : Option KeyStart → Option (Option KeyStart)
  | none => some none
  | some k => if s.reaches k then some (some k) else if k.required then none else some none

/-- Forgets what is out of reach. -/
def forget (s : Layout) : Option Layout := do
  return { s with pending := ← s.kept? s.pending, outer := ← s.outer.mapM s.kept? }

/-- Gives up what may become a key; it is a fault if it had to become one. -/
def giveUp (s : Layout) : Option Layout :=
  if s.pending.any (·.required) then none else some { s with pending := none }

/-- Notes that the next token may become a key. -/
def note (s : Layout) : Option Layout :=
  if s.keyAllowed then do
    let column := s.cursor.column
    let s ← s.giveUp
    return { s with
      pending := some ⟨s.cursor.place, s.tokens.size, !s.flow && s.columns.head? == some column⟩ }
  else some s

/-! ### Blocks -/

/-- Closes the blocks whose columns satisfy the condition, from the innermost on. -/
def closeBlocks (s : Layout) (closes : Nat → Bool) : Layout :=
  if s.flow then s
  else
    let closed := s.columns.takeWhile closes
    { s with
      columns := s.columns.drop closed.length
      tokens := s.tokens ++ Array.replicate closed.length .blockEnd }

/-- Opens a block in a column, if that is further right than the innermost block. The
mark of the block is put where a number of tokens stand before it. -/
def openBlock (s : Layout) (column before : Nat) (mark : Token) : Layout :=
  if s.flow || column < s.floor then s
  else { s.insert before mark with columns := column :: s.columns }

/-! ### Tokens -/

/-- A mark of a number of characters, and whether a key may begin behind it. -/
def mark (s : Layout) (t : Token) (length : Nat) (keyAllowed : Bool) : Layout :=
  { s.push t with cursor := s.cursor.skip length, keyAllowed := keyAllowed }

/-- What stands between documents: it closes every block. -/
def edge (s : Layout) (token : Token) (after : Cursor) : Option Layout := do
  let s ← (s.closeBlocks fun _ => true).giveUp
  return { s.push token with cursor := after, keyAllowed := false }

/-- A bracket that opens. -/
def openFlow (s : Layout) (t : Token) : Option Layout := do
  let s ← s.note
  return { s.mark t 1 true with pending := none, outer := s.pending :: s.outer }

/-- A bracket that closes. -/
def closeFlow (s : Layout) (t : Token) : Option Layout := do
  let s ← s.giveUp
  match s.outer with
  | [] => return s.mark t 1 false
  | pending :: outer => return { s.mark t 1 false with pending := pending, outer := outer }

/-- A comma. -/
def comma (s : Layout) : Option Layout := do
  return (← s.giveUp).mark .comma 1 true

/-- The dash of an item. -/
def item (s : Layout) : Option Layout := do
  guard (s.flow || s.keyAllowed)
  let s ← (s.openBlock s.cursor.column s.tokens.size .blockSequence).giveUp
  return s.mark .item 1 true

/-- The mark of a key. -/
def key (s : Layout) : Option Layout := do
  guard (s.flow || s.keyAllowed)
  let s ← (s.openBlock s.cursor.column s.tokens.size .blockMapping).giveUp
  return s.mark .key 1 (!s.flow)

/-- The colon of a value. What may become a key becomes one. -/
def value (s : Layout) : Option Layout :=
  match s.pending with
  | some k =>
    let marked := (s.insert k.before .key).openBlock k.place.column k.before .blockMapping
    some { marked.mark .value 1 false with pending := none }
  | none => do
    guard (s.flow || s.keyAllowed)
    let s := s.openBlock s.cursor.column s.tokens.size .blockMapping
    return s.mark .value 1 (!s.flow)

/-- A word that may become a key, as it is read from a place. -/
def word (s : Layout) (read : Cursor → Option (Token × Cursor)) : Option Layout := do
  let s ← s.note
  let (t, after) ← read s.cursor
  return { s.push t with cursor := after, keyAllowed := false }

/-- A scalar between quotes. -/
def quoted (s : Layout) (quote : Char) (style : Style) : Option Layout :=
  s.word fun c => do
    let (text, after) ← Quoted.read quote c
    return (.scalar style (String.ofList text), after)

/-- A plain scalar. If a line has ended behind it, a key may begin. -/
def plain (s : Layout) : Option Layout := do
  let s ← s.note
  let (text, crossed, after) ← Plain.read s.flow s.floor s.cursor
  return { s.push (.scalar .plain (String.ofList text)) with
    cursor := after, keyAllowed := crossed }

/-- An anchor. Its number is how many names have been given before. -/
def anchor (s : Layout) : Option Layout := do
  let (name, _) ← anchorName s.cursor
  let number := s.names.length
  let s ← s.word fun c => do
    let (_, after) ← anchorName c
    return (.anchor number, after)
  return { s with names := (name, number) :: s.names.filter (·.1 ≠ name) }

/-- An alias of a node whose anchor has been given before. -/
def aliasOf (s : Layout) : Option Layout :=
  s.word fun c => do
    let (name, after) ← anchorName c
    return (.aliasOf (← s.names.lookup name), after)

/-- A block of lines. -/
def block (s : Layout) (style : Style) : Option Layout := do
  let s ← s.giveUp
  let (text, after) ← Block.read (style = .folded) s.floor s.cursor
  return { s.push (.scalar style (String.ofList text)) with cursor := after, keyAllowed := true }

/-- The token that begins with a character. -/
def token (s : Layout) (c : Char) (rest : List Char) : Option Layout :=
  if s.cursor.column = 0 && c == '%' then do
    let (t, after) ← Directive.read s.cursor
    s.edge t after
  else if s.cursor.atDocumentMark '-' then s.edge .documentStart (s.cursor.skip 3)
  else if s.cursor.atDocumentMark '.' then s.edge .documentEnd (s.cursor.skip 3)
  else if c == '-' && endsMark rest then s.item
  else if c == '?' && (s.flow || endsMark rest) then s.key
  else if c == ':' && (s.flow || endsMark rest) then s.value
  else if Plain.begins s.flow s.cursor.rest then s.plain
  else match c with
    | '[' => s.openFlow .flowSequence
    | ']' => s.closeFlow .flowSequenceEnd
    | '\x7b' => s.openFlow .flowMapping
    | '\x7d' => s.closeFlow .flowMappingEnd
    | ',' => s.comma
    | '&' => s.anchor
    | '*' => s.aliasOf
    | '!' => s.word (Tag.read s.flow)
    | '\'' => s.quoted '\'' .single
    | '"' => s.quoted '"' .double
    | '|' => if s.flow then none else s.block .literal
    | '>' => if s.flow then none else s.block .folded
    | _ => none

/-- All blocks are closed where the text ends. -/
def finish (s : Layout) : Option (Array Token) := do
  return (← (s.closeBlocks fun _ => true).giveUp).tokens

/-- The tokens of a text, read from here on. -/
def run : Nat → Layout → Option (Array Token)
  | 0, _ => none
  | fuel + 1, s => do
    let s ← (s.skipGap (s.cursor.rest.length + 1)).forget
    let s := s.closeBlocks fun column => s.cursor.column < column
    match s.cursor.rest with
    | [] => s.finish
    | c :: rest => run fuel (← s.token c rest)

end Layout

/-- The tokens of a text. -/
def tokens? (text : List Char) : Option (List Token) := do
  let tokens ← (Layout.start text).run (text.length + 1)
  return tokens.toList

end SqlMaps.Yaml
