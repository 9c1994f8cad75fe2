import SqlMaps.Yaml.Token

/-! YAML nodes: scalars, sequences and mappings, and aliases of nodes that have been
given an anchor. -/
namespace SqlMaps.Yaml

/-- The anchor of a node, by its number, and its tag. -/
structure Marks where
  anchor : Option Nat
  tag : Option Uri
  deriving DecidableEq, Inhabited

/-- A node without an anchor and a tag. -/
def Marks.none : Marks := ⟨Option.none, Option.none⟩

/-- A node of a document. -/
inductive Node where
  | scalar (marks : Marks) (style : Style) (text : String)
  | sequence (marks : Marks) (items : List Node)
  /-- Keys with their values, in the order of the document; a key may occur again. -/
  | mapping (marks : Marks) (entries : List (Node × Node))
  | aliasOf (anchor : Nat)
  deriving Inhabited

namespace Node

/-- What stands for nothing. -/
def empty : Node := .scalar .none .plain ""

mutual

/-- The nodes with an anchor in a node, in the order of the document. -/
def anchored : Node → List (Nat × Node)
  | .scalar marks style text => (marks.anchor.map fun n => (n, .scalar marks style text)).toList
  | .sequence marks items =>
    (marks.anchor.map fun n => (n, .sequence marks items)).toList ++ anchoredItems items
  | .mapping marks entries =>
    (marks.anchor.map fun n => (n, .mapping marks entries)).toList ++ anchoredEntries entries
  | .aliasOf _ => []

/-- The nodes with an anchor in the items of a sequence. -/
def anchoredItems : List Node → List (Nat × Node)
  | [] => []
  | item :: items => item.anchored ++ anchoredItems items

/-- The nodes with an anchor in the entries of a mapping. -/
def anchoredEntries : List (Node × Node) → List (Nat × Node)
  | [] => []
  | (key, value) :: entries => key.anchored ++ value.anchored ++ anchoredEntries entries

end

end Node

end SqlMaps.Yaml
