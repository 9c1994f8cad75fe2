import SqlMaps.Proofs.Template.Reading

/-! The parts of a compiled query.

The parts are numbered in document order, the statement first. Reading refuses select keys
that do not belong to an insert, so the tree it returns is well placed whatever the events
were, balanced or not, and it has one directive for each that starts inside the statement
(`Reader.Placed.next`). Rendering such a tree keeps the parts in order: `Rendering.Numbers`
says how, for the parts of any owner while its body is being rendered. Together they make the
query well formed (`compile_wellFormed`). -/
namespace SqlMaps.Template
open Markup

/-! ### Directives of a tree -/

/-- Whether the name is that of a directive. -/
def namesDirective (name : String) : Bool :=
  (DirectiveKind.ofTag? name).isSome

/-- How many directives there are in a tree. -/
def directivesIn : Forest → Nat
  | .nil => 0
  | .text _ next => directivesIn next
  | .element name _ inner next =>
    (namesDirective name).toNat + directivesIn inner + directivesIn next

theorem directivesIn_append (f g : Forest) :
    directivesIn (f ++ g) = directivesIn f + directivesIn g := by
  induction f with
  | nil => simp [directivesIn]
  | text content next ih => exact ih
  | element name a inner next _ ih =>
    simp only [Forest.element_append, directivesIn, ih]
    omega

/-- Select keys stand only in what belongs to an insert itself, in no directive of it. -/
def KeysPlaced (owner : Kind) : Forest → Prop
  | .nil => True
  | .text _ next => KeysPlaced owner next
  | .element name _ inner next =>
    (match DirectiveKind.ofTag? name with
      | none => KeysPlaced owner inner
      | some kind =>
        (kind = .selectKey → owner = .statement .insert) ∧ KeysPlaced (.directive kind) inner) ∧
      KeysPlaced owner next

/-! ### Reading the statement -/

/-- Whether an event starts a directive. -/
def startsDirective : Event → Bool
  | .start name _ => namesDirective name
  | _ => false

namespace Reader

/-- An event, if it is read inside the wanted statement. -/
def eventInside : Reader → Event → List Event
  | .inside .., event => [event]
  | _, _ => []

/-- The events that are read inside the wanted statement. -/
def readInside (id : String) : Reader → List Answer → List Event
  | reader, .ok event :: rest =>
    reader.eventInside event ++
      match reader.step id event with
      | .done _ => []
      | .continue next => readInside id next rest
  | _, _ => []

/-- How many directives have started in the statement so far, those that are open included. -/
def started (root : OpenPart) : List OpenPart → Nat
  | [] => directivesIn root.body
  | part :: outer =>
    (namesDirective part.name).toNat + directivesIn part.body + started root outer

/-- Every element that is open may stand where it does, and its body is well placed. -/
def OpenPlaced (kind : StatementKind) (root : OpenPart) : List OpenPart → Prop
  | [] => WellPlaced kind root [] root.body
  | part :: outer =>
    misplaced? kind root outer part.name = none ∧
      WellPlaced kind root (part :: outer) part.body ∧ OpenPlaced kind root outer

/-- All that the reader has read of the statement is well placed, with so many directives. -/
def Placed (reader : Reader) (count : Nat) : Prop :=
  match reader with
  | .inside kind root inner => OpenPlaced kind root inner ∧ started root inner = count
  | _ => count = 0

section
variable {kind : StatementKind} {root : OpenPart} {inner : List OpenPart}

theorem wellPlaced_append {f g : Forest} (hf : WellPlaced kind root inner f)
    (hg : WellPlaced kind root inner g) : WellPlaced kind root inner (f ++ g) := by
  induction f with
  | nil => exact hg
  | text content next ih => exact ih hf
  | element name body next _ _ ih => exact ⟨hf.1, hf.2.1, ih hf.2.2⟩

/-- The owner inside one more element. -/
theorem owner_cons (kind : StatementKind) (part : OpenPart) (outer : List OpenPart) :
    owner kind (part :: outer) =
      match DirectiveKind.ofTag? part.name with
      | some directive => .directive directive
      | none => owner kind outer := by
  simp only [owner, List.findSome?_cons]
  cases DirectiveKind.ofTag? part.name <;> rfl

/-- What is well placed has its select keys where they belong. -/
theorem keysPlaced_of_wellPlaced {f : Forest} (h : WellPlaced kind root inner f) :
    KeysPlaced (owner kind inner) f := by
  induction f generalizing inner with
  | nil => trivial
  | text content next ih => exact ih h
  | element name a body next ihBody ihNext =>
    obtain ⟨hname, hbody, hnext⟩ := h
    refine ⟨?_, ihNext hnext⟩
    have hinside := ihBody hbody
    rw [owner_cons] at hinside
    simp only [OpenPart.start] at hinside
    cases hd : DirectiveKind.ofTag? name with
    | none => simpa only [hd] using hinside
    | some directive =>
      refine ⟨?_, by simpa only [hd] using hinside⟩
      rintro rfl
      by_contra howner
      simp [misplaced?, hd, howner] at hname

/-- A well-placed tree may be added to what has been read. -/
theorem OpenPlaced.add (h : OpenPlaced kind root inner) {f : Forest}
    (hf : WellPlaced kind root inner f) :
    (addInside kind root inner f).Placed (started root inner + directivesIn f) := by
  cases inner with
  | nil =>
    have hbody : WellPlaced kind root [] (root.body ++ f) := wellPlaced_append h hf
    refine ⟨wellPlaced_congr (by rfl) (by rfl) hbody, ?_⟩
    simp [started, OpenPart.add, directivesIn_append]
  | cons part outer =>
    obtain ⟨hname, hpart, houter⟩ := h
    have hbody : WellPlaced kind root (part :: outer) (part.body ++ f) :=
      wellPlaced_append hpart hf
    refine ⟨⟨hname, wellPlaced_congr rfl (by rfl) hbody, houter⟩, ?_⟩
    simp only [started, OpenPart.add, directivesIn_append]
    omega

/-- What one event leads to, when so many directives have started before it. -/
inductive Next (reader : Reader) (count : Nat) (event : Event) : Progress → Prop
  | refused (e : CompileError) : Next reader count event (.done (.error e))
  | ended {s : Statement} : KeysPlaced (.statement s.kind) s.body →
      directivesIn s.body = count + (reader.eventInside event).countP startsDirective →
      Next reader count event (.done (.ok s))
  | further {next : Reader} :
      next.Placed (count + (reader.eventInside event).countP startsDirective) →
      Next reader count event (.continue next)

theorem OpenPlaced.next (h : OpenPlaced kind root inner) (event : Event) :
    Next (.inside kind root inner) (started root inner) event
      (stepInside kind root inner event) := by
  cases event with
  | start name a =>
    simp only [stepInside]
    cases hplace : misplaced? kind root inner name with
    | some cause => exact .refused _
    | none =>
      refine .further ⟨⟨hplace, trivial, h⟩, ?_⟩
      cases hd : namesDirective name <;>
        simp [started, OpenPart.start, directivesIn, eventInside, startsDirective, hd]
      omega
  | text content => exact .further (h.add (f := .text content .nil) trivial)
  | finish name =>
    cases inner with
    | nil =>
      exact .ended (keysPlaced_of_wellPlaced h) (by simp [started, eventInside, startsDirective])
    | cons part outer =>
      obtain ⟨hname, hbody, houter⟩ := h
      have hclose : WellPlaced kind root outer part.close :=
        ⟨hname, wellPlaced_congr rfl (by rfl) hbody, trivial⟩
      have hcount :
          started root outer + directivesIn part.close = started root (part :: outer) := by
        simp only [started, OpenPart.close, directivesIn]
        omega
      exact .further (hcount ▸ houter.add hclose)
  | endOfStream => exact .refused _

end

/-- Whatever comes, what is read stays well placed, and the directives that start inside the
statement are counted. -/
theorem Placed.next {reader : Reader} {count : Nat} (h : reader.Placed count) (id : String)
    (event : Event) : Next reader count event (reader.step id event) := by
  cases reader with
  | seeking =>
    cases h
    cases event with
    | start name a =>
      simp only [Reader.step, stepSeeking]
      cases StatementKind.ofTag? name with
      | some kind =>
        by_cases hid : GivesId id a
        · simp only [if_pos hid]
          exact .further ⟨trivial, rfl⟩
        · simp only [if_neg hid]
          exact .further rfl
      | none =>
        cases DirectiveKind.ofTag? name with
        | some directive => exact .refused _
        | none => exact .further rfl
    | text => exact .further rfl
    | finish => exact .further rfl
    | endOfStream => exact .refused _
  | skipping name depth =>
    cases h
    cases event with
    | start => exact .further rfl
    | text => exact .further rfl
    | finish =>
      simp only [Reader.step, stepSkipping]
      split
      · exact .further rfl
      · exact .further rfl
    | endOfStream => exact .refused _
  | inside kind root inner =>
    obtain ⟨hplaced, rfl⟩ := h
    exact hplaced.next event

/-- A statement that is read has its select keys where they belong, and a directive for each
that has started inside it. -/
theorem Placed.of_result {reader : Reader} {count : Nat} (h : reader.Placed count) {id : String}
    {answers : List Answer} {s : Statement} (hs : reader.result id answers = .ok s) :
    KeysPlaced (.statement s.kind) s.body ∧
      directivesIn s.body = count + (readInside id reader answers).countP startsDirective := by
  induction answers generalizing reader count with
  | nil =>
    obtain ⟨e, he⟩ := reader.step_endOfStream id
    simp only [result, run, he] at hs
    cases hs
  | cons answer rest ih =>
    cases answer with
    | error cause => cases hs
    | ok event =>
      have hnext := h.next id event
      simp only [readInside]
      generalize hp : reader.step id event = p at hnext
      cases hnext with
      | refused e =>
        rw [result_of_done hp] at hs
        cases hs
      | ended hkeys hcount =>
        rw [result_of_done hp] at hs
        cases hs
        exact ⟨hkeys, by simp [hcount]⟩
      | further hplaced =>
        rw [result_of_continue hp] at hs
        obtain ⟨hkeys, hcount⟩ := ih hplaced hs
        exact ⟨hkeys, by rw [hcount, List.countP_append, Nat.add_assoc]⟩

end Reader

/-- The events that are read inside the statement with the id. -/
def Source.readInside (id : String) : Source → List Event
  | .unavailable _ => []
  | .answering answers => Reader.seeking.readInside id answers

/-! ### Numbering the parts -/

theorem getElem?_append_cons_eq_some {α : Type} {a b : List α} {x y : α} {i : Nat} :
    (a ++ x :: b)[i]? = some y ↔
      a[i]? = some y ∨ i = a.length ∧ x = y ∨ ∃ j, i = a.length + 1 + j ∧ b[j]? = some y := by
  by_cases hi : i < a.length
  · rw [List.getElem?_append_left hi]
    constructor
    · exact .inl
    · rintro (h | ⟨rfl, -⟩ | ⟨j, rfl, -⟩)
      · exact h
      · omega
      · omega
  · have hnone : a[i]? = none := List.getElem?_eq_none (by omega)
    obtain ⟨k, rfl⟩ := Nat.exists_eq_add_of_le (Nat.not_lt.mp hi)
    rw [List.getElem?_append_right (by omega), Nat.add_sub_cancel_left, hnone]
    cases k with
    | zero =>
      constructor
      · intro h
        exact .inr (.inl ⟨rfl, Option.some.inj h⟩)
      · rintro (h | ⟨-, rfl⟩ | ⟨j, hj, -⟩)
        · cases h
        · rfl
        · omega
    | succ k =>
      constructor
      · intro h
        exact .inr (.inr ⟨k, by omega, h⟩)
      · rintro (h | ⟨hk, -⟩ | ⟨j, hj, h⟩)
        · cases h
        · omega
        · obtain rfl : j = k := by omega
          exact h

namespace Rendering

/-- A directive behind `i` others of the owner with the number: it belongs to the owner or to
one of the others. A select key belongs to the owner itself. -/
structure PartOf (number i : Nat) (node : Node) : Prop where
  directive : ∃ kind, node.kind = .directive kind
  parent : ∃ p, node.parent = some p ∧ number ≤ p ∧ p ≤ number + i
  keyParent : node.kind = .directive .selectKey → node.parent = some number
  selectKeys : node.selectKeys = []

/-- The parts of an owner, in the order of their numbers, and its select keys among them. -/
structure Numbers (owner : Owner) (r : Rendering) : Prop where
  parts : ∀ i node, r.nodes[i]? = some node → PartOf owner.number i node
  sorted : r.selectKeys.Pairwise (· < ·)
  keys : ∀ n, n ∈ r.selectKeys ↔
    ∃ i node, r.nodes[i]? = some node ∧ node.kind = .directive .selectKey ∧
      n = owner.number + 1 + i
  insert : r.selectKeys ≠ [] → owner.kind = .statement .insert

section
variable {params : Params} {owner child : Owner} {r inner : Rendering} {kind : DirectiveKind}
  {a : Attributes}

theorem numbers_start (owner : Owner) (own around : Draft) :
    (Rendering.start own around).Numbers owner :=
  ⟨by simp [start], .nil, by simp [start], by simp [start]⟩

theorem Numbers.addText (h : r.Numbers owner) (params : Params) (content : String) :
    (r.addText params owner content).Numbers owner := by
  rw [addText_eq]
  exact ⟨h.parts, h.sorted, h.keys, h.insert⟩

/-- A directive has no select keys, and there are none among the parts inside it. -/
theorem Numbers.keyless (h : inner.Numbers child) (hchild : child.kind = .directive kind) :
    inner.selectKeys = [] ∧
      ∀ (i : Nat) (part : Node), inner.nodes[i]? = some part →
        part.kind ≠ .directive .selectKey := by
  have hnone : inner.selectKeys = [] := by
    by_contra hsome
    have := h.insert hsome
    rw [hchild] at this
    cases this
  refine ⟨hnone, fun i part hpart hkey => ?_⟩
  have hmem := (h.keys (child.number + 1 + i)).2 ⟨i, part, hpart, hkey, rfl⟩
  rw [hnone] at hmem
  cases hmem

/-- Where the parts of a rendering stand once a directive has ended. -/
theorem nodes_close_eq_some {i : Nat} {part : Node} :
    (r.close params owner kind a inner).nodes[i]? = some part ↔
      r.nodes[i]? = some part ∨ i = r.nodes.length ∧ node owner kind a inner = part ∨
        ∃ j, i = r.nodes.length + 1 + j ∧ inner.nodes[j]? = some part :=
  getElem?_append_cons_eq_some

theorem Numbers.parts_close (h : r.Numbers owner) (hinner : inner.Numbers child)
    (hchild : child.kind = .directive kind)
    (hnumber : child.number = owner.number + 1 + r.nodes.length)
    {i : Nat} {part : Node} (hpart : (r.close params owner kind a inner).nodes[i]? = some part) :
    PartOf owner.number i part := by
  obtain ⟨hnone, hkeyless⟩ := hinner.keyless hchild
  obtain hbefore | ⟨rfl, rfl⟩ | ⟨j, rfl, hinside⟩ := nodes_close_eq_some.1 hpart
  · exact h.parts i part hbefore
  · exact ⟨⟨kind, rfl⟩, ⟨owner.number, rfl, by omega, by omega⟩, fun _ => rfl, hnone⟩
  · obtain ⟨hdirective, ⟨p, hp, hlow, hhigh⟩, -, hkeys⟩ := hinner.parts j part hinside
    refine ⟨hdirective, ⟨p, hp, by omega, by omega⟩, ?_, hkeys⟩
    intro hkey
    exact absurd hkey (hkeyless j part hinside)

theorem Numbers.close (h : r.Numbers owner) (hinner : inner.Numbers child)
    (hchild : child.kind = .directive kind)
    (hnumber : child.number = owner.number + 1 + r.nodes.length)
    (hplaced : kind = .selectKey → owner.kind = .statement .insert) :
    (r.close params owner kind a inner).Numbers owner := by
  obtain ⟨-, hkeyless⟩ := hinner.keyless hchild
  have hbelow : ∀ n ∈ r.selectKeys, n < owner.number + 1 + r.nodes.length := by
    intro n hn
    obtain ⟨i, part, hpart, -, rfl⟩ := (h.keys n).1 hn
    have := (List.getElem?_eq_some_iff.1 hpart).1
    omega
  have hkeys : (r.close params owner kind a inner).selectKeys =
      if kind = .selectKey then r.selectKeys ++ [owner.number + 1 + r.nodes.length]
      else r.selectKeys := rfl
  refine ⟨fun i part => h.parts_close hinner hchild hnumber, ?_, fun n => ?_, ?_⟩
  · rw [hkeys]
    split
    · refine List.pairwise_append.2 ⟨h.sorted, List.pairwise_singleton .., ?_⟩
      simpa using hbelow
    · exact h.sorted
  · have hmem : n ∈ (r.close params owner kind a inner).selectKeys ↔
        n ∈ r.selectKeys ∨ kind = .selectKey ∧ n = owner.number + 1 + r.nodes.length := by
      rw [hkeys]
      split <;> simp_all
    rw [hmem, h.keys]
    constructor
    · rintro (⟨i, part, hpart, hkey, rfl⟩ | ⟨rfl, rfl⟩)
      · exact ⟨i, part, nodes_close_eq_some.2 (.inl hpart), hkey, rfl⟩
      · exact ⟨_, _, nodes_close_eq_some.2 (.inr (.inl ⟨rfl, rfl⟩)), rfl, rfl⟩
    · rintro ⟨i, part, hpart, hkey, rfl⟩
      obtain hbefore | ⟨rfl, rfl⟩ | ⟨j, rfl, hinside⟩ := nodes_close_eq_some.1 hpart
      · exact .inl ⟨i, part, hbefore, hkey, rfl⟩
      · exact .inr ⟨by simpa [node] using hkey, rfl⟩
      · exact absurd hkey (hkeyless j part hinside)
  · rw [hkeys]
    split
    · intro _
      exact hplaced ‹_›
    · exact h.insert

end

end Rendering

/-- Rendering a tree whose select keys stand where they belong numbers its parts in order. -/
theorem numbers_render (params : Params) {owner : Owner} (ownText : Bool) {f : Forest}
    (hf : KeysPlaced owner.kind f) {r : Rendering} (h : r.Numbers owner) :
    (render params owner ownText f r).Numbers owner := by
  induction f generalizing owner ownText r with
  | nil => exact h
  | text content next ih =>
    cases ownText with
    | false => exact ih false hf h
    | true => exact ih true hf (h.addText params content)
  | element name a inner next ihInner ihNext =>
    obtain ⟨hname, hnext⟩ := hf
    cases hd : DirectiveKind.ofTag? name with
    | none =>
      simp only [hd] at hname
      simp only [render, hd]
      exact ihNext ownText hnext (ihInner false hname h)
    | some kind =>
      simp only [hd] at hname
      simp only [render, hd]
      apply ihNext ownText hnext
      have hbody := @ihInner ⟨.directive kind, a, owner.number + 1 + r.nodes.length⟩ true hname.2
        _ (Rendering.numbers_start _ (Rendering.opening kind a) r.own)
      exact h.close hbody rfl rfl hname.1

/-- Every directive of a tree becomes a part. -/
theorem length_nodes_render {params : Params} {owner : Owner} (ownText : Bool) (f : Forest)
    (r : Rendering) :
    (render params owner ownText f r).nodes.length = r.nodes.length + directivesIn f := by
  induction f generalizing owner ownText r with
  | nil => rfl
  | text content next ih =>
    have htext : (r.addText params owner content).nodes = r.nodes := by
      rw [Rendering.addText_eq]
    cases ownText with
    | false => exact ih false r
    | true =>
      have hnext := @ih owner true (r.addText params owner content)
      rwa [htext] at hnext
  | element name a inner next ihInner ihNext =>
    cases hd : DirectiveKind.ofTag? name with
    | none =>
      simp only [render, hd, ihNext, ihInner, directivesIn, namesDirective, Option.isSome_none,
        Bool.toNat_false]
      omega
    | some kind =>
      simp only [render, hd, ihNext, Rendering.close, ihInner, Rendering.start, directivesIn,
        namesDirective, Option.isSome_some, Bool.toNat_true, List.length_append, List.length_cons,
        List.length_nil]
      omega

/-! ### Well-formed queries -/

/-- How the parts of a query hang together. -/
structure CompiledQuery.WellFormed (query : CompiledQuery) : Prop where
  statement : ∃ kind, query.root.kind = .statement kind
  parentless : query.root.parent = none
  directive : ∀ {n : Nat} {node : Node}, 0 < n → query.nodes[n]? = some node →
    ∃ kind, node.kind = .directive kind
  parent : ∀ {n : Nat} {node : Node}, 0 < n → query.nodes[n]? = some node →
    ∃ p < n, node.parent = some p
  /-- The select keys of the statement are all there are, each once and in order. -/
  keys : ∀ n, n ∈ query.root.selectKeys ↔
    ∃ node : Node, query.nodes[n]? = some node ∧ node.kind = .directive .selectKey
  sorted : query.root.selectKeys.Pairwise (· < ·)
  keyParent : ∀ {n : Nat} {node : Node}, query.nodes[n]? = some node →
    node.kind = .directive .selectKey → node.parent = some 0
  insert : query.root.selectKeys ≠ [] → query.root.kind = .statement .insert
  selectKeys : ∀ {n : Nat} {node : Node}, 0 < n → query.nodes[n]? = some node →
    node.selectKeys = []

/-- A statement whose select keys stand where they belong compiles to a well-formed query. -/
theorem Statement.wellFormed_compile {statement : Statement} (params : Params)
    (h : KeysPlaced (.statement statement.kind) statement.body) :
    (statement.compile params).WellFormed := by
  have hnumbers : (statement.rendering params).Numbers
      ⟨.statement statement.kind, statement.attributes, 0⟩ :=
    numbers_render params true h (Rendering.numbers_start _ _ _)
  -- The parts of the rendering come behind the statement, whose number is 0.
  have hpart : ∀ {n : Nat} {node : Node}, 0 < n → (statement.compile params).nodes[n]? = some node →
      ∃ i, n = i + 1 ∧ (statement.rendering params).nodes[i]? = some node ∧
        Rendering.PartOf 0 i node := by
    intro n node hn hnode
    obtain ⟨i, rfl⟩ : ∃ i, n = i + 1 := ⟨n - 1, by omega⟩
    exact ⟨i, rfl, hnode, hnumbers.parts i node hnode⟩
  refine ⟨⟨_, rfl⟩, rfl, fun hn hnode => ?_, fun hn hnode => ?_, fun n => ?_, hnumbers.sorted,
    fun {n node} hnode hkey => ?_, hnumbers.insert, fun hn hnode => ?_⟩
  · obtain ⟨i, rfl, -, hi⟩ := hpart hn hnode
    exact hi.directive
  · obtain ⟨i, rfl, -, hi⟩ := hpart hn hnode
    obtain ⟨p, hp, -, hhigh⟩ := hi.parent
    exact ⟨p, by omega, hp⟩
  · refine (hnumbers.keys n).trans ⟨?_, ?_⟩
    · rintro ⟨i, node, hnode, hkey, rfl⟩
      refine ⟨node, ?_, hkey⟩
      rw [show 0 + 1 + i = i + 1 by omega]
      exact hnode
    · rintro ⟨node, hnode, hkey⟩
      cases n with
      | zero =>
        cases hnode
        cases hkey
      | succ i => exact ⟨i, node, hnode, hkey, by simp only; omega⟩
  · cases n with
    | zero =>
      cases hnode
      cases hkey
    | succ i =>
      obtain ⟨j, -, -, hj⟩ := hpart (Nat.succ_pos i) hnode
      exact hj.keyParent hkey
  · obtain ⟨i, rfl, -, hi⟩ := hpart hn hnode
    exact hi.selectKeys

/-- Whatever a template is made of, a query that compiles is well formed, and beside the
statement it has a part for each directive that started inside the statement. -/
theorem compile_wellFormed {source : Source} {id : String} {params : List Param}
    {query : CompiledQuery} (h : compile source id params = .ok query) :
    query.WellFormed ∧
      query.nodes.length = 1 + (source.readInside id).countP startsDirective := by
  cases source with
  | unavailable cause => cases h
  | answering answers =>
    rw [compile_answering] at h
    cases hs : Reader.seeking.result id answers with
    | error e =>
      rw [hs] at h
      cases h
    | ok statement =>
      rw [hs] at h
      cases h
      have hstart : Reader.seeking.Placed 0 := rfl
      obtain ⟨hkeys, hcount⟩ := hstart.of_result hs
      refine ⟨Statement.wellFormed_compile _ hkeys, ?_⟩
      have hlength : (statement.compile (.ofList params)).nodes.length =
          (statement.rendering (.ofList params)).nodes.length + 1 := rfl
      rw [hlength, Statement.rendering, length_nodes_render, hcount]
      simp only [Rendering.start, List.length_nil, Source.readInside]
      omega

/-- An insert with a key in a group and a key of its own, and a directive in a directive; an
end bears another name than the start, and the source fails behind the statement. -/
def keyedInsert : Source :=
  .answering
    ([.start "sqlMap" [], .start "insert" [("id", "i")], .text "INSERT INTO t VALUES (1)",
        .start "group" [], .start "selectKey" [("keyProperty", "id")], .text "SELECT 1",
        .finish "isNull", .finish "group", .start "isNull" [("property", "p")],
        .start "dynamic" [], .text "RETURNING a", .finish "dynamic", .finish "isNull",
        .start "selectKey" [], .finish "selectKey", .finish "insert"].map .ok ++
      [.error .closed])

theorem compile_wellFormed_keyedInsert :
    ∃ query, compile keyedInsert "i" [] = .ok query ∧ query.WellFormed ∧
      query.nodes.length = 1 + (keyedInsert.readInside "i").countP startsDirective ∧
      query.nodes.map Node.parent = [none, some 0, some 0, some 2, some 0] ∧
      query.root.selectKeys = [1, 4] := by
  have hcompiled : (compile keyedInsert "i" []).map
      (fun query => (query.nodes.map Node.parent, query.root.selectKeys)) =
        .ok ([none, some 0, some 0, some 2, some 0], [1, 4]) := by decide +kernel
  cases h : compile keyedInsert "i" [] with
  | error e =>
    rw [h] at hcompiled
    cases hcompiled
  | ok query =>
    rw [h] at hcompiled
    obtain ⟨hwell, hlength⟩ := compile_wellFormed h
    obtain ⟨hparents, hkeys⟩ := Prod.mk.inj (Except.ok.inj hcompiled)
    exact ⟨query, rfl, hwell, hlength, hparents, hkeys⟩

end SqlMaps.Template
