import SqlMaps.Markup.Event
import SqlMaps.Template.Kind
import SqlMaps.Template.Placeholder

/-! Rendering a statement with bound values.

Every directive writes to a draft of its own while its body is read, and to the draft
of what it stands in. A conditional that holds writes its text to the draft around
it at once, with its prepend in front, and what stands in it is merged when it ends.
A dynamic part gathers its content and is merged, after its prepend, if there is
any. A select key is no part of the text around it.

The prepend of a fragment is left out where a keyword has just been announced: a
dynamic part whose prepend is a keyword starts so, until the first fragment. -/
namespace SqlMaps.Template

/-- Text as it grows. -/
structure Draft where
  text : String
  /-- Whether the text is to come directly after a keyword. -/
  afterKeyword : Bool
  deriving DecidableEq

namespace Draft

/-- Nothing written yet. -/
def empty : Draft := ⟨"", false⟩

/-- Whether the next fragment starts on a line of its own. -/
def atLineStart (d : Draft) : Bool :=
  match d.text.toList.getLast? with
  | none => true
  | some c => c == '\n' || c == '\r'

/-- Adds text. -/
def add (d : Draft) (s : String) : Draft :=
  { d with text := d.text ++ s }

/-- Ends the line, unless the draft is at the start of one. -/
def breakLine (d : Draft) : Draft :=
  if d.atLineStart then d else d.add "\n"

/-- Adds a body on a line of its own. -/
def merge (d : Draft) (body : String) : Draft :=
  ⟨(d.breakLine.add body).text, false⟩

/-- Adds a fragment on a line of its own, after its prepend unless a keyword has just
been announced. -/
def addFragment (d : Draft) (prepend fragment : String) : Draft :=
  if prepend = "" ∨ d.afterKeyword then d.merge fragment
  else d.merge (prepend ++ "\n" ++ fragment)

end Draft

/-- Whether the condition holds of the bound values. -/
def Condition.holds (params : Params) (attributes : Markup.Attributes) : Condition → Bool
  | .isNull => params.isNull (property attributes)
  | .isNotNull => !params.isNull (property attributes)
  | .isEqual => (attributes.value? "compareValue").any (· == compared params attributes)
  | .isNotEqual => (attributes.value? "compareValue").any (· != compared params attributes)
where
  /-- The name that the conditional asks about. -/
  property (attributes : Markup.Attributes) : String :=
    (attributes.value? "property").getD ""
  /-- The text its value is compared by. -/
  compared (params : Params) (attributes : Markup.Attributes) : String :=
    params.comparisonText (property attributes)

/-- The prepend of an element; an empty one counts as none. -/
def prependOf (attributes : Markup.Attributes) : String :=
  (attributes.value? "prepend").getD ""

/-- A part of a compiled query. -/
structure Node where
  kind : Kind
  attributes : Markup.Attributes
  sql : String
  /-- The number of the part it belongs to. -/
  parent : Option Nat
  /-- The numbers of its select keys. -/
  selectKeys : List Nat
  afterKeyword : Bool
  deriving DecidableEq

/-- The part whose body is being rendered, and its number. -/
structure Owner where
  kind : Kind
  attributes : Markup.Attributes
  number : Nat

/-- What rendering the body of a part has produced. -/
structure Rendering where
  /-- The part's own draft. -/
  own : Draft
  /-- The draft of the part it belongs to. -/
  around : Draft
  /-- The directives inside it, in document order. -/
  nodes : List Node
  /-- The numbers of its select keys. -/
  selectKeys : List Nat

namespace Rendering

/-- Before anything of the body has been rendered. -/
def start (own around : Draft) : Rendering :=
  ⟨own, around, [], []⟩

/-- Renders a text that stands directly in the part. -/
def addText (params : Params) (owner : Owner) (r : Rendering) (content : String) : Rendering :=
  match owner.kind with
  | .directive (.conditional condition) =>
    if condition.holds params owner.attributes then
      { r with around := r.around.addFragment (prependOf owner.attributes) content }
    else r
  | .directive .selectKey => { r with own := r.own.add (substitute params content) }
  | _ => { r with own := r.own.add content }

/-- The draft that a directive starts with. -/
def opening (kind : DirectiveKind) (attributes : Markup.Attributes) : Draft :=
  { Draft.empty with afterKeyword := kind = .dynamic && isKeyword (prependOf attributes) }

/-- The draft around a directive once its body has been rendered. -/
def merged (params : Params) (kind : DirectiveKind) (attributes : Markup.Attributes)
    (inner : Rendering) : Draft :=
  match kind with
  | .selectKey => inner.around
  | .dynamic =>
    if inner.own.text = "" then inner.around
    else if prependOf attributes = "" then inner.around.merge inner.own.text
    else inner.around.merge (prependOf attributes ++ "\n" ++ inner.own.text)
  | .conditional condition =>
    if inner.own.text = "" ∨ ¬ condition.holds params attributes then inner.around
    else inner.around.merge inner.own.text

/-- The directive as a part of the query. -/
def node (owner : Owner) (kind : DirectiveKind) (attributes : Markup.Attributes)
    (inner : Rendering) : Node where
  kind := .directive kind
  attributes := attributes
  sql := if kind = .selectKey then Text.trimmed inner.own.text else inner.own.text
  parent := some owner.number
  selectKeys := inner.selectKeys
  afterKeyword := inner.own.afterKeyword

/-- Ends a directive: its node and those inside it follow the ones before. -/
def close (params : Params) (owner : Owner) (kind : DirectiveKind)
    (attributes : Markup.Attributes) (r inner : Rendering) : Rendering where
  own := merged params kind attributes inner
  around := r.around
  nodes := r.nodes ++ node owner kind attributes inner :: inner.nodes
  selectKeys :=
    if kind = .selectKey then r.selectKeys ++ [owner.number + 1 + r.nodes.length]
    else r.selectKeys

end Rendering

end SqlMaps.Template
