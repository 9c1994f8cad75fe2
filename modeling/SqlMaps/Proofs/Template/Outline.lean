import SqlMaps.Proofs.Template.Page

/-! What is settled of a query before any value is bound.

Values decide what is written in the parts of a query. Which parts there are, where each of
them stands and which select keys the statement has is decided by the template alone: two
renderings of a tree that begin with the same shapes end with the same shapes, whatever is
bound (`shapes_render`). A walk has the values at hand at every event, but it goes where the
reader goes, which has none (`compilation_answering`). So they have no say in the errors either
(`compile_sameShapes`). -/
namespace SqlMaps.Template
open Markup

/-- A part of a query without what is written in it. -/
structure Shape where
  kind : Kind
  attributes : Attributes
  parent : Option Nat
  selectKeys : List Nat
  deriving DecidableEq

/-- The shape of a part. -/
def Node.shape (node : Node) : Shape :=
  ⟨node.kind, node.attributes, node.parent, node.selectKeys⟩

/-- The shapes of the parts of a query, each under its number. -/
def CompiledQuery.shapes (query : CompiledQuery) : List Shape :=
  query.nodes.map Node.shape

namespace Rendering

/-- The shapes of the parts so far, and the numbers of the select keys. -/
def shapes (r : Rendering) : List Shape × List Nat :=
  (r.nodes.map Node.shape, r.selectKeys)

section
variable {params params' : Params} {owner : Owner} {r r' inner inner' : Rendering}

theorem length_of_shapes (h : r.shapes = r'.shapes) : r.nodes.length = r'.nodes.length := by
  have hmap := congrArg (fun s => s.1.length) h
  simpa [shapes] using hmap

/-- A text is no part. -/
theorem shapes_addText (params : Params) (owner : Owner) (r : Rendering) (content : String) :
    (r.addText params owner content).shapes = r.shapes := by
  rw [addText_eq]
  rfl

/-- The shape of a directive hangs on the shapes inside it. -/
theorem shape_node (kind : DirectiveKind) (a : Attributes) (h : inner.shapes = inner'.shapes) :
    (node owner kind a inner).shape = (node owner kind a inner').shape := by
  have hkeys : inner.selectKeys = inner'.selectKeys := congrArg Prod.snd h
  simp only [node, Node.shape, hkeys]

theorem shapes_close (kind : DirectiveKind) (a : Attributes) (h : r.shapes = r'.shapes)
    (hinner : inner.shapes = inner'.shapes) :
    (r.close params owner kind a inner).shapes = (r'.close params' owner kind a inner').shapes := by
  have hnodes : r.nodes.map Node.shape = r'.nodes.map Node.shape := congrArg Prod.fst h
  have hkeys : r.selectKeys = r'.selectKeys := congrArg Prod.snd h
  have hinside : inner.nodes.map Node.shape = inner'.nodes.map Node.shape :=
    congrArg Prod.fst hinner
  simp only [shapes, close, List.map_append, List.map_cons, hnodes, hkeys, hinside,
    length_of_shapes h, shape_node kind a hinner]

end

end Rendering

/-- Whatever is bound, a tree adds the same shapes. -/
theorem shapes_render (params params' : Params) {owner : Owner} (ownText : Bool) (f : Forest)
    {r r' : Rendering} (h : r.shapes = r'.shapes) :
    (render params owner ownText f r).shapes = (render params' owner ownText f r').shapes := by
  induction f generalizing owner ownText r r' with
  | nil => exact h
  | text content next ih =>
    cases ownText with
    | false => exact ih false h
    | true =>
      apply ih true
      simp only [if_true, Rendering.shapes_addText, h]
  | element name a inner next ihInner ihNext =>
    cases hd : DirectiveKind.ofTag? name with
    | none =>
      simp only [render, hd]
      exact ihNext ownText (ihInner false h)
    | some kind =>
      simp only [render, hd, Rendering.length_of_shapes h]
      apply ihNext ownText
      apply Rendering.shapes_close kind a h
      -- The bodies begin with different drafts, but both without a part.
      exact ihInner true rfl

/-- Whatever is bound, a statement has the same shapes. -/
theorem Statement.shapes_compile (statement : Statement) (params params' : Params) :
    (statement.compile params).shapes = (statement.compile params').shapes := by
  have h : (statement.rendering params).shapes = (statement.rendering params').shapes :=
    shapes_render params params' true statement.body rfl
  have hnodes : (statement.rendering params).nodes.map Node.shape =
      (statement.rendering params').nodes.map Node.shape := congrArg Prod.fst h
  have hkeys : (statement.rendering params).selectKeys =
      (statement.rendering params').selectKeys := congrArg Prod.snd h
  simp only [CompiledQuery.shapes, CompiledQuery.nodes, Statement.compile, List.map_cons,
    Node.shape, hnodes, hkeys]

/-- Parameters never decide whether a template is legal. With any two lists of them a query
compiles to parts of the same shapes, part by part, or fails with the same error; and the
source is read as often. -/
theorem compile_sameShapes (source : Source) (id : String) (params params' : List Param) :
    (compile source id params).map CompiledQuery.shapes =
        (compile source id params').map CompiledQuery.shapes ∧
      (compilation source id params).reads = (compilation source id params').reads := by
  cases source with
  | unavailable cause => exact ⟨rfl, rfl⟩
  | answering answers =>
    -- The two walks are those of one reader, to which the values make no difference.
    simp only [compile, Compilation.reads, compilation_answering, and_true]
    cases Reader.seeking.result id answers with
    | error e => rfl
    | ok statement => exact congrArg Except.ok (statement.shapes_compile _ _)

/-- A value decides whether the conditional is written, and not whether it is a part. -/
example :
    let source : Source := .ofForest
      (.element "select" [("id", "q")]
        (.text "SELECT 1"
          (.element "isNull" [("property", "x")] (.text "WHERE a IS NULL" .nil) .nil))
        .nil)
    (compile source "q" []).map CompiledQuery.sql ≠
        (compile source "q" [⟨"x", .integer 1⟩]).map CompiledQuery.sql ∧
      (compile source "q" []).map CompiledQuery.shapes =
        .ok [⟨.statement .select, [("id", "q")], none, []⟩,
          ⟨.directive (.conditional .isNull), [("property", "x")], some 0, []⟩] := by
  decide +kernel

end SqlMaps.Template
