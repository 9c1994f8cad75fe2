import SqlMaps.Yaml.Node

/-! The nodes that tokens make up.

Every mark that opens a collection has one that closes it, but for the items that stand in
the column of their key: these end where something else stands. What is missing between
two marks is an empty scalar. -/
namespace SqlMaps.Yaml

/-- What the handles of tags stand for. -/
abbrev Handles := List (List Char × Uri)

namespace Handles

/-- The beginning of the tags that every document knows. -/
def core : Uri := Uri.ofName "tag:yaml.org,2002:".toList

/-- The handles that need no directive. -/
def given : Handles := [(['!'], Uri.ofName ['!']), (['!', '!'], core)]

/-- The tag of a handle and what follows it. Without a handle it stands in full. -/
def tag? (handles : Handles) (handle : List Char) (uri : Uri) : Option Uri :=
  if handle.isEmpty then some uri else (handles.lookup handle).map (· ++ uri)

end Handles

namespace Node

/-- The tag at the head of the tokens, if one stands there. -/
def takeTag (handles : Handles) : List Token → Option (Option Uri × List Token)
  | .tag handle uri :: rest => do return (some (← handles.tag? handle uri), rest)
  | tokens => some (none, tokens)

/-- The anchor at the head of the tokens, if one stands there. -/
def takeAnchor : List Token → Option Nat × List Token
  | .anchor number :: rest => (some number, rest)
  | tokens => (none, tokens)

/-- The anchor and the tag of a node, in either order. -/
def takeMarks (handles : Handles) (tokens : List Token) : Option (Marks × List Token) := do
  match takeAnchor tokens with
  | (some anchor, rest) =>
    let (tag, rest) ← takeTag handles rest
    return (⟨some anchor, tag⟩, rest)
  | (none, tokens) =>
    let (tag, rest) ← takeTag handles tokens
    let (anchor, rest) := if tag.isSome then takeAnchor rest else (none, rest)
    return (⟨anchor, tag⟩, rest)

/-- The marks of a scalar. An exclamation mark alone says no more than none. -/
def scalarMarks (marks : Marks) : Marks :=
  if marks.tag = some (Uri.ofName ['!']) then { marks with tag := none } else marks

mutual

/-- The node at the head of the tokens, and the tokens behind it. `block` says that it may
be a block, and `indentless` that it may be items in the column of their key. -/
def take (handles : Handles) (block indentless : Bool) :
    Nat → List Token → Option (Node × List Token)
  | 0, _ => none
  | fuel + 1, tokens =>
    match tokens with
    | .aliasOf number :: rest => some (.aliasOf number, rest)
    | tokens => do
      let (marks, tokens) ← takeMarks handles tokens
      let missing := if marks = .none then none else some (.scalar marks .plain "", tokens)
      match tokens with
      | .scalar style text :: rest => return (.scalar (scalarMarks marks) style text, rest)
      | .flowSequence :: rest =>
        let (items, rest) ← takeFlowItems handles true fuel rest
        return (.sequence marks items, rest)
      | .flowMapping :: rest =>
        let (entries, rest) ← takeFlowEntries handles true fuel rest
        return (.mapping marks entries, rest)
      | .item :: _ =>
        if indentless then
          let (items, rest) ← takeIndentlessItems handles fuel tokens
          return (.sequence marks items, rest)
        else missing
      | .blockSequence :: rest =>
        if block then
          let (items, rest) ← takeItems handles fuel rest
          return (.sequence marks items, rest)
        else missing
      | .blockMapping :: rest =>
        if block then
          let (entries, rest) ← takeEntries handles fuel rest
          return (.mapping marks entries, rest)
        else missing
      | _ => missing

/-- The node at the head of the tokens; an empty one before a token that ends it. -/
def takeUnless (handles : Handles) (ends : List Token) (block indentless : Bool) :
    Nat → List Token → Option (Node × List Token)
  | 0, _ => none
  | fuel + 1, tokens =>
    if tokens.head?.any ends.contains then some (.empty, tokens)
    else take handles block indentless fuel tokens

/-- The items of a block sequence. -/
def takeItems (handles : Handles) : Nat → List Token → Option (List Node × List Token)
  | 0, _ => none
  | fuel + 1, tokens =>
    match tokens with
    | .item :: rest => do
      let (first, rest) ← takeUnless handles [.item, .blockEnd] true false fuel rest
      let (items, rest) ← takeItems handles fuel rest
      return (first :: items, rest)
    | .blockEnd :: rest => some ([], rest)
    | _ => none

/-- The items of a sequence in the column of its key. -/
def takeIndentlessItems (handles : Handles) :
    Nat → List Token → Option (List Node × List Token)
  | 0, _ => none
  | fuel + 1, tokens =>
    match tokens with
    | .item :: rest => do
      let (first, rest) ←
        takeUnless handles [.item, .key, .value, .blockEnd] true false fuel rest
      let (items, rest) ← takeIndentlessItems handles fuel rest
      return (first :: items, rest)
    | tokens => some ([], tokens)

/-- The entries of a block mapping. -/
def takeEntries (handles : Handles) :
    Nat → List Token → Option (List (Node × Node) × List Token)
  | 0, _ => none
  | fuel + 1, tokens =>
    match tokens with
    | .key :: rest => do
      let (key, rest) ← takeUnless handles [.key, .value, .blockEnd] true true fuel rest
      let (value, rest) ← match rest with
        | .value :: rest => takeUnless handles [.key, .value, .blockEnd] true true fuel rest
        | rest => pure (.empty, rest)
      let (entries, rest) ← takeEntries handles fuel rest
      return ((key, value) :: entries, rest)
    | .blockEnd :: rest => some ([], rest)
    | _ => none

/-- The items of a sequence between brackets. All but the first have a comma before
them. -/
def takeFlowItems (handles : Handles) (first : Bool) :
    Nat → List Token → Option (List Node × List Token)
  | 0, _ => none
  | fuel + 1, tokens =>
    match first, tokens with
    | _, .flowSequenceEnd :: rest => some ([], rest)
    | true, tokens => takeFlowItem handles fuel tokens
    | false, .comma :: .flowSequenceEnd :: rest => some ([], rest)
    | false, .comma :: rest => takeFlowItem handles fuel rest
    | false, _ => none

/-- An item of a sequence between brackets, and the items behind it. A key makes it a
mapping of one entry. -/
def takeFlowItem (handles : Handles) : Nat → List Token → Option (List Node × List Token)
  | 0, _ => none
  | fuel + 1, tokens => do
    let (item, rest) ← match tokens with
      | .key :: rest => takePair handles fuel rest
      | tokens => take handles false false fuel tokens
    let (items, rest) ← takeFlowItems handles false fuel rest
    return (item :: items, rest)

/-- The mapping of one entry behind the mark of its key. Where the key is missing, the
token in its place is passed over. -/
def takePair (handles : Handles) : Nat → List Token → Option (Node × List Token)
  | 0, _ => none
  | fuel + 1, tokens => do
    let missing := tokens.head?.any [.value, .comma, .flowSequenceEnd].contains
    let (key, rest) ←
      if missing then pure (.empty, tokens.tail) else take handles false false fuel tokens
    let (value, rest) ← match rest with
      | .value :: rest => takeUnless handles [.comma, .flowSequenceEnd] false false fuel rest
      | rest => pure (.empty, rest)
    return (.mapping .none [(key, value)], rest)

/-- The entries of a mapping between brackets. All but the first have a comma before
them. -/
def takeFlowEntries (handles : Handles) (first : Bool) :
    Nat → List Token → Option (List (Node × Node) × List Token)
  | 0, _ => none
  | fuel + 1, tokens =>
    match first, tokens with
    | _, .flowMappingEnd :: rest => some ([], rest)
    | true, tokens => takeFlowEntry handles fuel tokens
    | false, .comma :: .flowMappingEnd :: rest => some ([], rest)
    | false, .comma :: rest => takeFlowEntry handles fuel rest
    | false, _ => none

/-- An entry of a mapping between brackets, and the entries behind it. -/
def takeFlowEntry (handles : Handles) :
    Nat → List Token → Option (List (Node × Node) × List Token)
  | 0, _ => none
  | fuel + 1, tokens => do
    let (entry, rest) ← match tokens with
      | .key :: rest => do
        let (key, rest) ←
          takeUnless handles [.value, .comma, .flowMappingEnd] false false fuel rest
        let (value, rest) ← match rest with
          | .value :: rest => takeUnless handles [.comma, .flowMappingEnd] false false fuel rest
          | rest => pure (.empty, rest)
        pure ((key, value), rest)
      | tokens => do
        let (key, rest) ← take handles false false fuel tokens
        pure ((key, .empty), rest)
    let (entries, rest) ← takeFlowEntries handles false fuel rest
    return (entry :: entries, rest)

end

end Node

/-- The directives before a document, and the tokens behind them. The version is 1.1 or
1.2, and neither it nor a handle is given twice. -/
def takeDirectives (versioned : Bool) (handles : Handles) :
    List Token → Option (Handles × List Token)
  | .version major minor :: rest =>
    if versioned || major ≠ 1 || (minor ≠ 1 && minor ≠ 2) then none
    else takeDirectives true handles rest
  | .handle name uri :: rest =>
    if (handles.lookup name).isSome then none
    else takeDirectives versioned (handles ++ [(name, uri)]) rest
  | tokens => some (handles, tokens)

/-- The only document that tokens make up. -/
def nodeOf? (tokens : List Token) : Option Node := do
  let fuel := 4 * tokens.length + 4
  let (node, rest) ← match tokens with
    | [] => pure (.empty, [])
    | tokens => do
      let (handles, behind) ← takeDirectives false [] tokens
      match behind with
      | .documentStart :: content =>
        if content.head?.all [.documentStart, .documentEnd].contains then pure (.empty, content)
        else Node.take (handles ++ Handles.given) true false fuel content
      | behind =>
        if behind.length < tokens.length then none
        else Node.take Handles.given true false fuel tokens
  guard (rest.dropWhile (· = .documentEnd)).isEmpty
  return node

end SqlMaps.Yaml
