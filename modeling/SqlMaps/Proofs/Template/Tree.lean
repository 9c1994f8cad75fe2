import SqlMaps.Markup.Forest
import SqlMaps.Template.Compile

/-! A compilation in two steps: reading the statement, and rendering it.

A `Reader` goes over the events as a walk does, but it writes nothing: inside the wanted
statement it builds the tree of what it reads. `Statement.compile` then renders the tree, and
only here values are looked at. A walk is at every event where the reader is, with what has been
read of each open element rendered (`Reader.walker_step`). So it comes to what the two steps come
to, one after the other (`compile_answering`), and properties of a query are properties of a tree
and its rendering. -/
namespace SqlMaps.Template

/-! ### Reading -/

/-- A statement of a template, with the tree of what stands in it. -/
structure Statement where
  kind : StatementKind
  attributes : Markup.Attributes
  body : Markup.Forest
  deriving DecidableEq

/-- An element that is being read: what has been read of it so far. -/
structure OpenPart where
  name : String
  attributes : Markup.Attributes
  body : Markup.Forest
  deriving DecidableEq

namespace OpenPart

/-- An element of which nothing has been read. -/
def start (name : String) (attributes : Markup.Attributes) : OpenPart :=
  ⟨name, attributes, .nil⟩

/-- Adds to what has been read. -/
def add (part : OpenPart) (forest : Markup.Forest) : OpenPart :=
  { part with body := part.body ++ forest }

/-- The element as a tree. -/
def close (part : OpenPart) : Markup.Forest :=
  .element part.name part.attributes part.body .nil

end OpenPart

/-- Where the reader is. -/
inductive Reader where
  /-- Between statements. -/
  | seeking
  /-- In a statement with another id, this many elements deep. -/
  | skipping (name : String) (depth : Nat)
  /-- In the wanted statement, inside the elements of `inner`, the innermost first. -/
  | inside (kind : StatementKind) (root : OpenPart) (inner : List OpenPart)
  deriving DecidableEq

namespace Reader

/-- What reading one answer leads to. -/
inductive Progress where
  | continue (reader : Reader)
  | done (result : Except CompileError Statement)

/-- What directives in the innermost element belong to: the innermost directive around
them, or the statement. -/
def owner (kind : StatementKind) (inner : List OpenPart) : Kind :=
  match inner.findSome? fun part => DirectiveKind.ofTag? part.name with
  | some directive => .directive directive
  | none => .statement kind

/-- Why an element may not start where the reader is, if it may not. -/
def misplaced? (kind : StatementKind) (root : OpenPart) (inner : List OpenPart)
    (name : String) : Option Misplacement :=
  match DirectiveKind.ofTag? name with
  | some .selectKey =>
    if owner kind inner = .statement .insert then none
    else some (.selectKeyInside (owner kind inner))
  | some _ => none
  | none =>
    (StatementKind.ofTag? name).map fun _ =>
      .nestedStatement name ((inner.head?.getD root).name)

/-- Adds to the innermost element. -/
def addInside (kind : StatementKind) (root : OpenPart) (inner : List OpenPart)
    (forest : Markup.Forest) : Reader :=
  match inner with
  | [] => .inside kind (root.add forest) []
  | part :: outer => .inside kind root (part.add forest :: outer)

/-- Reads an event while looking for the statement with the id. -/
def stepSeeking (id : String) : Markup.Event → Progress
  | .start name attributes =>
    match StatementKind.ofTag? name with
    | some kind =>
      if GivesId id attributes then .continue (.inside kind (.start name attributes) [])
      else .continue (.skipping name 1)
    | none =>
      match DirectiveKind.ofTag? name with
      | some _ => .done (.error (.illegalStructure (.directiveOutside name)))
      | none => .continue .seeking
  | .endOfStream => .done (.error (.queryNotFound id))
  | _ => .continue .seeking

/-- Reads an event in a statement with another id. -/
def stepSkipping (name : String) (depth : Nat) : Markup.Event → Progress
  | .start .. => .continue (.skipping name (depth + 1))
  | .finish _ => .continue (if depth ≤ 1 then .seeking else .skipping name (depth - 1))
  | .text _ => .continue (.skipping name depth)
  | .endOfStream => .done (.error (.endedInside name))

/-- Reads an event in the wanted statement. -/
def stepInside (kind : StatementKind) (root : OpenPart) (inner : List OpenPart) :
    Markup.Event → Progress
  | .start name attributes =>
    match misplaced? kind root inner name with
    | some cause => .done (.error (.illegalStructure cause))
    | none => .continue (.inside kind root (.start name attributes :: inner))
  | .text content => .continue (addInside kind root inner (.text content .nil))
  | .finish _ =>
    match inner with
    | [] => .done (.ok ⟨kind, root.attributes, root.body⟩)
    | part :: outer => .continue (addInside kind root outer part.close)
  | .endOfStream => .done (.error (.endedInside (inner.head?.getD root).name))

/-- Reads one event. -/
def step (id : String) : Reader → Markup.Event → Progress
  | .seeking, event => stepSeeking id event
  | .skipping name depth, event => stepSkipping name depth event
  | .inside kind root inner, event => stepInside kind root inner event

/-- Reads answers until the statement is complete or a failure decides, and counts the
reads. -/
def run (id : String) : Reader → List Answer → Except CompileError Statement × Nat
  | reader, [] =>
    match reader.step id .endOfStream with
    | .done result => (result, 1)
    | .continue _ => (.error (.queryNotFound id), 1)
  | _, .error cause :: _ => (.error (.malformed cause), 1)
  | reader, .ok event :: rest =>
    match reader.step id event with
    | .done result => (result, 1)
    | .continue reader =>
      let (result, reads) := run id reader rest
      (result, reads + 1)

/-- The result of reading, without the number of reads. -/
def result (id : String) (reader : Reader) (answers : List Answer) :
    Except CompileError Statement :=
  (run id reader answers).1

/-- The end of the stream always decides. -/
theorem step_endOfStream (id : String) (reader : Reader) :
    ∃ e, reader.step id .endOfStream = .done (.error e) := by
  cases reader <;> exact ⟨_, rfl⟩

end Reader

/-! ### Rendering -/

/-- Renders the body of a part. Inside an element that is no directive, `ownText` is
off: its texts are dropped, and its directives belong to the part around it. -/
def render (params : Params) (owner : Owner) (ownText : Bool) :
    Markup.Forest → Rendering → Rendering
  | .nil, r => r
  | .text content next, r =>
    render params owner ownText next (if ownText then r.addText params owner content else r)
  | .element name attributes inner next, r =>
    match DirectiveKind.ofTag? name with
    | none => render params owner ownText next (render params owner false inner r)
    | some kind =>
      let child : Owner := ⟨.directive kind, attributes, owner.number + 1 + r.nodes.length⟩
      let body := render params child true inner (.start (Rendering.opening kind attributes) r.own)
      render params owner ownText next (r.close params owner kind attributes body)

namespace Statement

/-- The statement's rendering, before its text is trimmed and its placeholders are
replaced. -/
def rendering (statement : Statement) (params : Params) : Rendering :=
  render params ⟨.statement statement.kind, statement.attributes, 0⟩ true statement.body
    (.start .empty .empty)

/-- The statement with the values put in. -/
def compile (statement : Statement) (params : Params) : CompiledQuery :=
  let r := statement.rendering params
  { root :=
      { kind := .statement statement.kind
        attributes := statement.attributes
        sql := substitute params (Text.trimmed r.own.text)
        parent := none
        selectKeys := r.selectKeys
        afterKeyword := r.own.afterKeyword }
    directives := r.nodes }

end Statement

/-! ### Both in one walk -/

section
variable {params : Params}

theorem render_append (owner : Owner) (ownText : Bool) (f g : Markup.Forest) (r : Rendering) :
    render params owner ownText (f ++ g) r =
      render params owner ownText g (render params owner ownText f r) := by
  induction f generalizing r with
  | nil => rfl
  | text content next ih => exact ih _
  | element name attributes inner next _ ih =>
    rw [Markup.Forest.element_append, render, render]
    split
    · exact ih _
    · exact ih _

namespace Filling

/-- A body goes on with a tree. -/
def write (params : Params) (filling : Filling) (f : Markup.Forest) : Filling :=
  { filling with
    rendering := render params filling.owner filling.ownText f filling.rendering }

variable (filling : Filling)

theorem write_append (f g : Markup.Forest) :
    filling.write params (f ++ g) = (filling.write params f).write params g := by
  simp only [write, render_append]

theorem write_text (content : String) :
    filling.write params (.text content .nil) = filling.addText params content := by
  rw [write, render, addText]
  split <;> rfl

/-- An element is written by what stands in it, between its start and its end. -/
theorem write_element (name : String) (attributes : Markup.Attributes) (f : Markup.Forest) :
    filling.write params (.element name attributes f .nil) =
      filling.closed params ((filling.opened name attributes).write params f) := by
  rw [write, render, closed, opened]
  cases h : DirectiveKind.ofTag? name with
  | none => simp only [write, h, render]
  | some kind => simp only [write, h, render]

end Filling

namespace Reader
variable (params : Params) (kind : StatementKind) (root : OpenPart)

/-- What the walk has of the innermost element: its body is rendered as far as it has been read. -/
def filling : List OpenPart → Filling
  | [] => (Filling.ofStatement root.name kind root.attributes).write params root.body
  | part :: outer => ((filling outer).opened part.name part.attributes).write params part.body

/-- What the walk has of the elements around the innermost one. -/
def around : List OpenPart → List Filling
  | [] => []
  | _ :: outer => filling params kind root outer :: around outer

/-- Where the walk is. -/
def walker (params : Params) : Reader → Walker
  | .seeking => .seeking
  | .skipping name depth => .skipping name depth
  | .inside kind root inner =>
    .filling (filling params kind root inner) (around params kind root inner)

/-- What the walk makes of an event, where the reader makes this of it. -/
def Progress.walked (params : Params) : Progress → Walker.Progress
  | .continue reader => .continue (reader.walker params)
  | .done result => .done (result.map fun statement => statement.compile params)

variable {params kind root} (inner : List OpenPart)

theorem name_filling : (filling params kind root inner).name = (inner.head?.getD root).name := by
  cases inner with
  | nil => rfl
  | cons part outer =>
    rw [filling, Filling.write, Filling.opened]
    split <;> rfl

theorem kind_filling : (filling params kind root inner).owner.kind = owner kind inner := by
  induction inner with
  | nil => rfl
  | cons part outer ih =>
    rw [filling, Filling.write, Filling.opened, owner, List.findSome?_cons]
    cases h : DirectiveKind.ofTag? part.name with
    | none => exact ih
    | some directive => rfl

theorem misplaced?_filling (name : String) :
    (filling params kind root inner).misplaced? name = misplaced? kind root inner name := by
  rw [misplaced?, ← @name_filling params kind root inner, ← @kind_filling params kind root inner]
  rfl

/-- What is added to the innermost element is written there. -/
theorem walker_addInside (f : Markup.Forest) :
    (addInside kind root inner f).walker params =
      .filling ((filling params kind root inner).write params f)
        (around params kind root inner) := by
  cases inner with
  | nil =>
    rw [addInside, walker, filling, filling, ← Filling.write_append]
    rfl
  | cons part outer =>
    rw [addInside, walker, filling, filling, ← Filling.write_append]
    rfl

/-- Every event takes the walk along with the reader. -/
theorem walker_step (reader : Reader) (id : String) (event : Markup.Event) :
    (reader.walker params).step params id event = (reader.step id event).walked params := by
  cases reader with
  | seeking =>
    cases event with
    | start name attributes =>
      simp only [walker, Walker.step, Walker.seek, step, stepSeeking]
      cases StatementKind.ofTag? name with
      | some kind =>
        dsimp only
        split <;> rfl
      | none => cases DirectiveKind.ofTag? name <;> rfl
    | _ => rfl
  | skipping name depth =>
    cases event with
    | finish _ =>
      simp only [walker, Walker.step, step, stepSkipping, Progress.walked]
      split <;> rfl
    | _ => rfl
  | inside kind root inner =>
    cases event with
    | start name attributes =>
      simp only [walker, Walker.step, step, stepInside, misplaced?_filling]
      cases misplaced? kind root inner name <;> rfl
    | text content =>
      simp only [step, stepInside, Progress.walked, walker_addInside, Filling.write_text]
      rfl
    | finish _ =>
      cases inner with
      | nil => rfl
      | cons part outer =>
        simp only [step, stepInside, Progress.walked, walker_addInside, OpenPart.close,
          Filling.write_element]
        rfl
    | endOfStream =>
      rw [Walker.step_endOfStream, walker, Walker.ended, name_filling]
      rfl

/-- A walk comes to the rendering of what the reader reads, and hears as many answers. -/
theorem walker_run (reader : Reader) (id : String) (answers : List Answer) :
    (reader.walker params).run params id answers =
      ((reader.run id answers).1.map fun statement => statement.compile params,
        (answers ++ [Except.ok Markup.Event.endOfStream]).take (reader.run id answers).2) := by
  induction answers generalizing reader with
  | nil =>
    obtain ⟨e, he⟩ := reader.step_endOfStream id
    have hended := @walker_step params reader id .endOfStream
    rw [he, Walker.step_endOfStream] at hended
    obtain rfl : (reader.walker params).ended id = e :=
      Except.error.inj (Walker.Progress.done.inj hended)
    rw [run, he]
    rfl
  | cons answer rest ih =>
    cases answer with
    | error cause => rfl
    | ok event =>
      rw [Walker.run, Walker.hear, walker_step, run]
      cases reader.step id event with
      | done result => rfl
      | «continue» next =>
        simp only [Progress.walked, ih]
        rfl

end Reader

end

/-- A compilation renders the statement that is read, or fails as the reader does. -/
theorem compilation_answering (answers : List Answer) (id : String) (params : List Param) :
    compilation (.answering answers) id params =
      { result :=
          (Reader.seeking.result id answers).map fun statement => statement.compile (.ofList params)
        contacts :=
          .opening (.ok ()) ::
            ((answers ++ [Except.ok Markup.Event.endOfStream]).take
              (Reader.seeking.run id answers).2).map .read ++ [.closing] } := by
  have hrun := @Reader.walker_run (.ofList params) .seeking id answers
  rw [Reader.walker] at hrun
  rw [compilation, hrun]
  rfl

theorem compile_answering (answers : List Answer) (id : String) (params : List Param) :
    compile (.answering answers) id params =
      (Reader.seeking.result id answers).map fun statement =>
        statement.compile (.ofList params) := by
  rw [compile, compilation_answering]

end SqlMaps.Template
