import SqlMaps.Template.Draft
import SqlMaps.Template.Error
import SqlMaps.Template.Source

/-! Compiling a query: finding its statement in a template, and rendering it.

Both are done in one walk over the events. The walk passes over the elements around the
statements and over statements with another id. Inside the wanted statement every text is
written as it is read, with the bound values put in, and an element that may not start
where it does is an error at once, whatever follows. The walk stops with the end of the
statement. A source is opened once, and closed once behind the last read. -/
namespace SqlMaps.Template

/-- A statement with its values put in, and the directives that were in it. -/
structure CompiledQuery where
  root : Node
  directives : List Node
  deriving DecidableEq

namespace CompiledQuery

/-- Every part, each under its number. -/
def nodes (query : CompiledQuery) : List Node :=
  query.root :: query.directives

/-- The text of the statement. -/
def sql (query : CompiledQuery) : String :=
  query.root.sql

/-- An attribute of the statement. -/
def attribute? (query : CompiledQuery) (name : String) : Option String :=
  query.root.attributes.value? name

/-- The select keys of the statement, in document order. -/
def selectKeys (query : CompiledQuery) : List Node :=
  query.root.selectKeys.filterMap (query.nodes[·]?)

end CompiledQuery

/-- The statement run for a select key without a text. -/
def defaultSelectKeySql : String := "SELECT last_insert_rowid()"

/-- The text that a select key runs. -/
def Node.selectKeySql (key : Node) : String :=
  if key.sql = "" then defaultSelectKeySql else key.sql

/-! ### Bodies -/

/-- An element whose body is being read: the part that it belongs to, and what has been
rendered of that part. -/
structure Filling where
  name : String
  owner : Owner
  /-- Whether texts count here. Those directly in an element that is no directive are
  dropped. -/
  ownText : Bool
  rendering : Rendering

namespace Filling

/-- A statement, of which nothing has been read. -/
def ofStatement (name : String) (kind : StatementKind) (attributes : Markup.Attributes) :
    Filling :=
  ⟨name, ⟨.statement kind, attributes, 0⟩, true, .start .empty .empty⟩

/-- Why an element may not start here, if it may not. -/
def misplaced? (filling : Filling) (name : String) : Option Misplacement :=
  match DirectiveKind.ofTag? name with
  | some .selectKey =>
    if filling.owner.kind = .statement .insert then none
    else some (.selectKeyInside filling.owner.kind)
  | some _ => none
  | none => (StatementKind.ofTag? name).map fun _ => .nestedStatement name filling.name

/-- An element that starts here. A directive is a part of its own; any other element goes on
with the part around it. -/
def opened (filling : Filling) (name : String) (attributes : Markup.Attributes) : Filling :=
  match DirectiveKind.ofTag? name with
  | some kind =>
    { name
      owner :=
        ⟨.directive kind, attributes, filling.owner.number + 1 + filling.rendering.nodes.length⟩
      ownText := true
      rendering := .start (Rendering.opening kind attributes) filling.rendering.own }
  | none => { filling with name, ownText := false }

/-- Reads a text. -/
def addText (params : Params) (filling : Filling) (content : String) : Filling :=
  if filling.ownText then
    { filling with rendering := filling.rendering.addText params filling.owner content }
  else filling

/-- Ends an element that started here. -/
def closed (params : Params) (filling inner : Filling) : Filling :=
  { filling with
    rendering :=
      match DirectiveKind.ofTag? inner.name with
      | some kind =>
        filling.rendering.close params filling.owner kind inner.owner.attributes inner.rendering
      | none => inner.rendering }

/-- The query, once the statement has ended: its text is trimmed and its placeholders are
replaced. -/
def query (params : Params) (filling : Filling) : CompiledQuery where
  root :=
    { kind := filling.owner.kind
      attributes := filling.owner.attributes
      sql := substitute params (Text.trimmed filling.rendering.own.text)
      parent := none
      selectKeys := filling.rendering.selectKeys
      afterKeyword := filling.rendering.own.afterKeyword }
  directives := filling.rendering.nodes

end Filling

/-! ### The walk -/

/-- Whether the attributes give the id. They may name it more than once. -/
def GivesId (id : String) (attributes : Markup.Attributes) : Prop :=
  ("id", id) ∈ attributes

instance (id : String) (attributes : Markup.Attributes) : Decidable (GivesId id attributes) :=
  inferInstanceAs (Decidable (("id", id) ∈ attributes))

/-- Where the walk is. -/
inductive Walker where
  /-- Between statements. -/
  | seeking
  /-- In a statement with another id, this many elements deep. -/
  | skipping (name : String) (depth : Nat)
  /-- In the wanted statement: the innermost element, and those around it. -/
  | filling (inner : Filling) (outer : List Filling)

namespace Walker

/-- What one answer leads to. -/
inductive Progress where
  | continue (walker : Walker)
  | done (result : Except CompileError CompiledQuery)

/-- What the end of the stream means. -/
def ended (id : String) : Walker → CompileError
  | .seeking => .queryNotFound id
  | .skipping name _ => .endedInside name
  | .filling inner _ => .endedInside inner.name

/-- An element starts between statements. -/
def seek (id name : String) (attributes : Markup.Attributes) : Progress :=
  match StatementKind.ofTag? name with
  | some kind =>
    if GivesId id attributes then .continue (.filling (.ofStatement name kind attributes) [])
    else .continue (.skipping name 1)
  | none =>
    match DirectiveKind.ofTag? name with
    | some _ => .done (.error (.illegalStructure (.directiveOutside name)))
    | none => .continue .seeking

/-- Reads one event. -/
def step (params : Params) (id : String) (walker : Walker) (event : Markup.Event) : Progress :=
  match walker, event with
  | _, .endOfStream => .done (.error (walker.ended id))
  | .seeking, .start name attributes => seek id name attributes
  | .seeking, _ => .continue .seeking
  | .skipping name depth, .start .. => .continue (.skipping name (depth + 1))
  | .skipping name depth, .finish _ =>
    .continue (if depth ≤ 1 then .seeking else .skipping name (depth - 1))
  | .skipping name depth, .text _ => .continue (.skipping name depth)
  | .filling inner outer, .start name attributes =>
    match inner.misplaced? name with
    | some cause => .done (.error (.illegalStructure cause))
    | none => .continue (.filling (inner.opened name attributes) (inner :: outer))
  | .filling inner outer, .text content => .continue (.filling (inner.addText params content) outer)
  | .filling inner [], .finish _ => .done (.ok (inner.query params))
  | .filling inner (around :: outer), .finish _ =>
    .continue (.filling (around.closed params inner) outer)

theorem step_endOfStream (params : Params) (id : String) (walker : Walker) :
    walker.step params id .endOfStream = .done (.error (walker.ended id)) := by
  cases walker <;> rfl

/-- Hears the answer to a read. -/
def hear (params : Params) (id : String) (walker : Walker) : Answer → Progress
  | .ok event => walker.step params id event
  | .error cause => .done (.error (.malformed cause))

/-- Reads until an answer decides: the result, and the answers that were heard. -/
def run (params : Params) (id : String) :
    Walker → List Answer → Except CompileError CompiledQuery × List Answer
  | walker, [] => (.error (walker.ended id), [.ok .endOfStream])
  | walker, answer :: rest =>
    match walker.hear params id answer with
    | .done result => (result, [answer])
    | .continue walker =>
      let (result, heard) := run params id walker rest
      (result, answer :: heard)

end Walker

/-! ### Compilations -/

/-- A compilation: its result, and its contacts with the source, in their order. -/
structure Compilation where
  result : Except CompileError CompiledQuery
  contacts : List Contact

namespace Compilation

/-- How often the source was read. -/
def reads (c : Compilation) : Nat :=
  c.contacts.countP Contact.isRead

/-- How often the source was closed. -/
def closes (c : Compilation) : Nat :=
  c.contacts.countP Contact.isClosing

end Compilation

/-- Compiles the statement with the id, with the parameters bound. -/
def compilation (source : Source) (id : String) (params : List Param) : Compilation :=
  match source with
  | .unavailable cause => ⟨.error (.malformed cause), [.opening (.error cause)]⟩
  | .answering answers =>
    let (result, heard) := Walker.seeking.run (.ofList params) id answers
    ⟨result, .opening (.ok ()) :: heard.map .read ++ [.closing]⟩

/-- The result of a compilation. -/
def compile (source : Source) (id : String) (params : List Param) :
    Except CompileError CompiledQuery :=
  (compilation source id params).result

/-- How far a compilation has come. -/
inductive Stage where
  | unopened
  | reading (walker : Walker)
  | decided (result : Except CompileError CompiledQuery)
  | over (result : Except CompileError CompiledQuery)

/-- A compilation on its way, and its contacts with the source so far. -/
structure Visit where
  stage : Stage
  contacts : List Contact

namespace Feed

/-- How a compilation goes on, with one more contact. -/
def next (feed : Feed) (id : String) (params : List Param) (v : Visit) : Visit :=
  match v.stage with
  | .unopened =>
    match feed.opening with
    | .ok () => ⟨.reading .seeking, v.contacts ++ [.opening (.ok ())]⟩
    | .error cause => ⟨.over (.error (.malformed cause)), v.contacts ++ [.opening (.error cause)]⟩
  | .reading walker =>
    let answer := feed.answer (v.contacts.countP Contact.isRead)
    match walker.hear (.ofList params) id answer with
    | .done result => ⟨.decided result, v.contacts ++ [.read answer]⟩
    | .continue walker => ⟨.reading walker, v.contacts ++ [.read answer]⟩
  | .decided result => ⟨.over result, v.contacts ++ [.closing]⟩
  | .over _ => v

/-- A compilation behind a number of contacts, of a source that need not end. -/
def visit (feed : Feed) (id : String) (params : List Param) : Nat → Visit
  | 0 => ⟨.unopened, []⟩
  | n + 1 => feed.next id params (feed.visit id params n)

end Feed

/-! ### Statements -/

/-- Checks that the text starts with the keyword of one of the kinds. -/
def checkStatement (sql : String) (kinds : List Kind) : Except CompileError Unit :=
  let start := Text.trimStart sql.toList
  if kinds.any fun kind => Text.startsWithKeyword kind.tag.toList start then .ok ()
  else .error (.wrongStatement kinds sql)

end SqlMaps.Template
