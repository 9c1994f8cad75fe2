import SqlMaps.Yaml.Nesting
import SqlMaps.Yaml.Scalar

/-! Documents, and what their nodes are read as.

A plain scalar can be read as a number, a flag or nothing at all; one in quotes or in a
block is text only, unless a literal block has the tag of what is wanted. An alias is read
as the node that it stands for. -/
namespace SqlMaps.Yaml

/-- A document: its node, and the nodes with an anchor, the last one first. -/
structure Document where
  root : Node
  anchored : List (Nat × Node)

namespace Document

/-- The document that a node makes up. -/
def ofNode (root : Node) : Document := ⟨root, root.anchored.reverse⟩

/-- The node that an alias stands for, and any other node itself. -/
def follow (d : Document) : Node → Option Node
  | .aliasOf number => d.anchored.lookup number
  | node => some node

/-- The text of a scalar, in the spelling it has. -/
def text? (d : Document) (node : Node) : Option String := do
  match ← d.follow node with
  | .scalar _ _ s => return s
  | _ => none

/-- The items of a sequence; nothing at all counts as no items. -/
def items? (d : Document) (node : Node) : Option (List Node) := do
  match ← d.follow node with
  | .sequence _ items => return items
  | .scalar _ .plain "" => return []
  | _ => none

/-- The entries of a mapping whose keys are texts; nothing at all counts as no
entries. -/
def entries? (d : Document) (node : Node) : Option (List (String × Node)) := do
  match ← d.follow node with
  | .mapping _ entries => entries.mapM fun (key, value) => do return (← d.text? key, value)
  | .scalar _ .plain "" => return []
  | _ => none

/-- The texts of a sequence of scalars. -/
def texts? (d : Document) (node : Node) : Option (List String) := do
  (← d.items? node).mapM d.text?

/-- The tag of every document's own kinds of scalars. -/
def coreTag (kind : String) : Uri :=
  Handles.core ++ Uri.ofName kind.toList

/-- The text of a scalar that may be read as something of the kind. -/
def untyped? (d : Document) (kind : String) (node : Node) : Option String := do
  match ← d.follow node with
  | .scalar _ .plain s => return s
  | .scalar marks .literal s => if marks.tag = some (coreTag kind) then return s else none
  | _ => none

/-- A flag. -/
def flag? (d : Document) (node : Node) : Option Bool := do
  Yaml.flag? (← d.untyped? "bool" node)

/-- A natural number of 64 bits. -/
def nat64? (d : Document) (node : Node) : Option Nat := do
  return (← natural? .nat64 (← d.untyped? "int" node).toList).toNat

/-- A text, or nothing. A plain scalar with a tag is a text, but for the tag of nothing,
which wants a word for it. -/
def optionalText? (d : Document) (node : Node) : Option (Option String) := do
  match ← d.follow node with
  | .scalar marks .plain s =>
    match marks.tag with
    | none => return if isNull s then none else some s
    | some tag =>
      if tag = coreTag "null" then if isNullWord s then return none else failure
      else return some s
  | .scalar _ _ s => return some s
  | _ => failure

/-- A word out of a choice: the text of a scalar, or the name of its own tag with nothing
behind it. -/
def word? (d : Document) (node : Node) : Option String := do
  match ← d.follow node with
  | .scalar marks style s =>
    match marks.tag with
    | some (0x21 :: name) =>
      let name := if name.isEmpty then [0x21] else name
      match String.fromUTF8? ⟨name.toArray⟩ with
      | some word => if style = .plain && isNull s then return word else none
      | none => return s
    | _ => return s
  | _ => none

end Document

/-- The value under a key that may occur once: absent, present, or given more often. -/
def uniqueField (entries : List (String × Node)) (key : String) : Option (Option Node) :=
  match entries.filter (·.1 = key) with
  | [] => some none
  | [(_, value)] => some (some value)
  | _ => none

/-- Reads the value under a key that may occur once, with a default when it is absent. -/
def readField (entries : List (String × Node)) (key : String) (absent : Option α)
    (read : Node → Option α) : Option α := do
  match ← uniqueField entries key with
  | none => absent
  | some node => read node

end SqlMaps.Yaml
