import Mathlib.Data.List.Basic
import SqlMaps.Proofs.Template.Tree

/-! What rendering writes.

A rendering also numbers the directives it meets. `write` leaves the numbers out: it goes
over the same tree with a `Page`, which has the two drafts and, of the parts, only the
select keys. `page_render` says that a rendering shows exactly this page, and so the text
of a compiled statement and of its select keys is that of the page (`shown_compile`).
Two trees that write the same on every page can stand for each other inside any other
(`writesAlike_element`). -/
namespace SqlMaps.Template
open Markup

/-- What has been written in a part and around it, and the select keys met. -/
structure Page where
  own : Draft
  around : Draft
  /-- The attributes and the text of each key, in document order. -/
  keys : List (Attributes × String)

namespace Page

/-- Before anything of the body has been written. -/
def start (own around : Draft) : Page :=
  ⟨own, around, []⟩

@[simp] theorem own_start (own around : Draft) : (start own around).own = own := rfl

@[simp] theorem around_start (own around : Draft) : (start own around).around = around := rfl

/-- The rendering that has written the page, without its parts. -/
def rendering (p : Page) : Rendering :=
  .start p.own p.around

/-- Writes a text that stands directly in the part. -/
def addText (params : Params) (kind : Kind) (attributes : Attributes) (p : Page)
    (content : String) : Page :=
  let r := p.rendering.addText params ⟨kind, attributes, 0⟩ content
  { p with own := r.own, around := r.around }

/-- Ends a directive, of which `inner` has been written. -/
def close (params : Params) (kind : DirectiveKind) (attributes : Attributes) (p inner : Page) :
    Page where
  own := Rendering.merged params kind attributes inner.rendering
  around := p.around
  keys := if kind = .selectKey then p.keys ++ [(attributes, Text.trimmed inner.own.text)] else p.keys

end Page

/-- A conditional that holds writes its text as a fragment into what stands around it. -/
theorem addText_conditional {params : Params} {condition : Condition} {attributes : Attributes}
    (p : Page) (content : String) :
    p.addText params (.directive (.conditional condition)) attributes content =
      if condition.holds params attributes then
        { p with around := p.around.addFragment (prependOf attributes) content } else p := by
  simp only [Page.addText, Rendering.addText, Page.rendering, Rendering.start]
  split <;> rfl

/-- Nothing that stands directly in a conditional is written to its own draft. -/
theorem own_addText_conditional {params : Params} {condition : Condition} {attributes : Attributes}
    (p : Page) (content : String) :
    (p.addText params (.directive (.conditional condition)) attributes content).own = p.own := by
  rw [addText_conditional]
  split <;> rfl

@[simp] theorem Draft.afterKeyword_merge {d : Draft} {s : String} :
    (d.merge s).afterKeyword = false := rfl

@[simp] theorem Draft.afterKeyword_addFragment {d : Draft} {s : String} (prepend : String) :
    (d.addFragment prepend s).afterKeyword = false := by
  rw [addFragment]
  split <;> rfl

/-- What stands around a directive is under no keyword once it has been merged into. -/
theorem Rendering.afterKeyword_merged {params : Params} {directive : DirectiveKind}
    {a : Attributes} {inner : Rendering} (h : inner.around.afterKeyword = false) :
    (Rendering.merged params directive a inner).afterKeyword = false := by
  cases directive with
  | selectKey => exact h
  | dynamic =>
    simp only [Rendering.merged]
    split
    · exact h
    · split <;> rfl
  | conditional condition =>
    simp only [Rendering.merged]
    split
    · exact h
    · rfl

/-- Writes a tree in a part of the kind and attributes. -/
def write (params : Params) (kind : Kind) (attributes : Attributes) (ownText : Bool) :
    Forest → Page → Page
  | .nil, p => p
  | .text content next, p =>
    write params kind attributes ownText next
      (if ownText then p.addText params kind attributes content else p)
  | .element name a inner next, p =>
    match DirectiveKind.ofTag? name with
    | none =>
      write params kind attributes ownText next (write params kind attributes false inner p)
    | some directive =>
      let body := write params (.directive directive) a true inner
        (.start (Rendering.opening directive a) p.own)
      write params kind attributes ownText next (p.close params directive a body)

section
variable (params : Params) (kind : Kind) (attributes : Attributes) (ownText : Bool)

theorem write_append (f g : Forest) (p : Page) :
    write params kind attributes ownText (f ++ g) p =
      write params kind attributes ownText g (write params kind attributes ownText f p) := by
  induction f generalizing p with
  | nil => rfl
  | text content next ih => exact ih _
  | element name a inner next _ ih =>
    rw [Forest.element_append, write, write]
    split
    · exact ih _
    · exact ih _

end

/-- A keyword is announced by the draft that a directive starts with, and by none that is
written to. -/
theorem afterKeyword_write {params : Params} {kind : Kind} {attributes : Attributes}
    {ownText : Bool} (f : Forest) {p : Page} :
    (p.own.afterKeyword = false →
      (write params kind attributes ownText f p).own.afterKeyword = false) ∧
    (p.around.afterKeyword = false →
      (write params kind attributes ownText f p).around.afterKeyword = false) := by
  induction f generalizing kind attributes ownText p with
  | nil => exact ⟨id, id⟩
  | text content next ih =>
    have htext : ∀ q : Page, (q.own.afterKeyword = false →
          (q.addText params kind attributes content).own.afterKeyword = false) ∧
        (q.around.afterKeyword = false →
          (q.addText params kind attributes content).around.afterKeyword = false) := by
      intro q
      rcases kind with kind | (_ | condition | _)
      · exact ⟨id, id⟩
      · exact ⟨id, id⟩
      · by_cases h : condition.holds params attributes = true <;>
          simp [Page.addText, Rendering.addText, Page.rendering, Rendering.start, h]
      · exact ⟨id, id⟩
    cases ownText with
    | false => exact ih
    | true => exact ⟨fun h => (@ih kind attributes true _).1 ((htext p).1 h),
        fun h => (@ih kind attributes true _).2 ((htext p).2 h)⟩
  | element name a inner next ihInner ihNext =>
    rw [write]
    split
    · exact ⟨fun h => ihNext.1 (ihInner.1 h), fun h => ihNext.2 (ihInner.2 h)⟩
    · rename_i directive _
      refine ⟨fun h => ihNext.1 ?_, fun h => (ihNext (p := p.close params directive a _)).2 h⟩
      have hbody := (@ihInner (.directive directive) a true
        (.start (Rendering.opening directive a) p.own)).2 h
      exact Rendering.afterKeyword_merged hbody

/-! ### The page of a rendering -/

namespace Rendering

/-- Every select key is the number of a part inside. -/
def Numbered (owner : Owner) (r : Rendering) : Prop :=
  ∀ n ∈ r.selectKeys, owner.number < n ∧ n ≤ owner.number + r.nodes.length

/-- The part of a number, as a key shows. -/
def key? (owner : Owner) (nodes : List Node) (n : Nat) : Option (Attributes × String) :=
  nodes[n - (owner.number + 1)]?.map fun node => (node.attributes, node.sql)

/-- What the rendering shows of itself. -/
def page (owner : Owner) (r : Rendering) : Page where
  own := r.own
  around := r.around
  keys := r.selectKeys.filterMap (key? owner r.nodes)

section
variable {params : Params} {owner : Owner} {r : Rendering}

theorem addText_eq (content : String) :
    r.addText params owner content =
      { r with
        own := ((start r.own r.around).addText params ⟨owner.kind, owner.attributes, 0⟩ content).own
        around :=
          ((start r.own r.around).addText params ⟨owner.kind, owner.attributes, 0⟩ content).around } := by
  obtain ⟨kind, attributes, number⟩ := owner
  rcases kind with kind | (_ | condition | _)
  · rfl
  · rfl
  · by_cases h : condition.holds params attributes = true <;> simp [addText, start, h]
  · rfl

theorem page_addText (content : String) :
    (r.addText params owner content).page owner =
      (r.page owner).addText params owner.kind owner.attributes content := by
  rw [addText_eq]
  rfl

theorem numbered_addText (h : r.Numbered owner) (content : String) :
    (r.addText params owner content).Numbered owner := by
  rw [addText_eq]
  exact h

/-- Parts that come later have no say in the keys there are. -/
theorem filterMap_key?_append (h : r.Numbered owner) (nodes : List Node) :
    r.selectKeys.filterMap (key? owner (r.nodes ++ nodes)) =
      r.selectKeys.filterMap (key? owner r.nodes) := by
  refine List.filterMap_congr fun n hn => ?_
  obtain ⟨hlow, hhigh⟩ := h n hn
  rw [key?, key?, List.getElem?_append_left (by omega)]

theorem page_close (h : r.Numbered owner) (kind : DirectiveKind) (attributes : Attributes)
    (inner : Rendering) {child : Owner} :
    (r.close params owner kind attributes inner).page owner =
      (r.page owner).close params kind attributes (inner.page child) := by
  have hkeys := filterMap_key?_append h (node owner kind attributes inner :: inner.nodes)
  by_cases hk : kind = .selectKey
  · subst hk
    have hnew : key? owner (r.nodes ++ node owner .selectKey attributes inner :: inner.nodes)
        (owner.number + 1 + r.nodes.length) = some (attributes, Text.trimmed inner.own.text) := by
      simp [key?, node]
    simp [page, close, Page.close, Page.rendering, merged, hkeys, hnew, start]
  · have hmerged : merged params kind attributes inner =
        merged params kind attributes (start inner.own inner.around) := rfl
    simp [page, close, Page.close, Page.rendering, hkeys, hk, hmerged]

theorem numbered_close (h : r.Numbered owner) (kind : DirectiveKind) (attributes : Attributes)
    (inner : Rendering) : (r.close params owner kind attributes inner).Numbered owner := by
  have hlength : (r.close params owner kind attributes inner).nodes.length =
      r.nodes.length + (inner.nodes.length + 1) := by simp [close]
  intro n hn
  rw [hlength]
  have hcases : n ∈ r.selectKeys ∨ n = owner.number + 1 + r.nodes.length := by
    simp only [close] at hn
    split at hn
    · simpa using hn
    · exact .inl hn
  rcases hcases with hn | rfl
  · have := h n hn
    omega
  · omega

end

end Rendering

/-- Rendering shows what is written. -/
theorem page_render {params : Params} {owner : Owner} (ownText : Bool) (f : Forest)
    {r : Rendering} (h : r.Numbered owner) :
    (render params owner ownText f r).Numbered owner ∧
      (render params owner ownText f r).page owner =
        write params owner.kind owner.attributes ownText f (r.page owner) := by
  induction f generalizing owner ownText r with
  | nil => exact ⟨h, rfl⟩
  | text content next ih =>
    cases ownText with
    | false => exact ih false h
    | true =>
      obtain ⟨hn, hp⟩ := ih true (Rendering.numbered_addText h content)
      exact ⟨hn, hp.trans (by rw [Rendering.page_addText]; rfl)⟩
  | element name a inner next ihInner ihNext =>
    cases hd : DirectiveKind.ofTag? name with
    | none =>
      obtain ⟨hn, hp⟩ := ihInner false h
      obtain ⟨hn', hp'⟩ := ihNext ownText hn
      simp only [render, write, hd]
      exact ⟨hn', by rw [hp', hp]⟩
    | some kind =>
      simp only [render, write, hd]
      have hstart : (Rendering.start (Rendering.opening kind a) r.own).Numbered
          ⟨.directive kind, a, owner.number + 1 + r.nodes.length⟩ := by
        intro n hn
        cases hn
      obtain ⟨_, hbody⟩ := ihInner true hstart
      obtain ⟨hn, hp⟩ := ihNext ownText (@Rendering.numbered_close params _ _ h kind a _)
      refine ⟨hn, ?_⟩
      rw [hp, Rendering.page_close h kind a _, hbody]
      rfl

/-- What a query shows: its text, and the attributes and the text of each of its select
keys. -/
structure Shown where
  sql : String
  keys : List (Attributes × String)
  deriving DecidableEq

/-- What the query shows. -/
def CompiledQuery.shown (query : CompiledQuery) : Shown :=
  ⟨query.sql, query.selectKeys.map fun key => (key.attributes, key.sql)⟩

namespace Statement

/-- The page of the whole statement. -/
def page (statement : Statement) (params : Params) : Page :=
  write params (.statement statement.kind) statement.attributes true statement.body
    (.start .empty .empty)

/-- Rendering a statement ends with its page. -/
theorem page_rendering (statement : Statement) (params : Params) :
    (statement.rendering params).Numbered ⟨.statement statement.kind, statement.attributes, 0⟩ ∧
      (statement.rendering params).page ⟨.statement statement.kind, statement.attributes, 0⟩ =
        statement.page params :=
  page_render true statement.body nofun

theorem own_rendering (statement : Statement) (params : Params) :
    (statement.rendering params).own = (statement.page params).own :=
  congrArg Page.own (statement.page_rendering params).2

/-- A compiled statement shows its page. -/
theorem shown_compile (statement : Statement) (params : Params) :
    (statement.compile params).shown =
      ⟨substitute params (Text.trimmed (statement.page params).own.text),
        (statement.page params).keys⟩ := by
  obtain ⟨hn, hp⟩ := statement.page_rendering params
  rw [← hp, CompiledQuery.shown]
  refine congrArg (Shown.mk _) ?_
  show ((statement.rendering params).selectKeys.filterMap _).map _ = _
  rw [List.map_filterMap]
  refine List.filterMap_congr fun n hn' => ?_
  obtain ⟨hlow, _⟩ := hn n hn'
  obtain ⟨k, rfl⟩ : ∃ k, n = k + 1 := ⟨n - 1, by simp only at hlow; omega⟩
  simp only [CompiledQuery.nodes, List.getElem?_cons_succ, Rendering.key?, Nat.zero_add,
    Nat.add_sub_cancel]
  rfl

end Statement

/-! ### Trees that write the same -/

/-- On every page the two trees write the same. -/
def WritesAlike (params : Params) (kind : Kind) (attributes : Attributes) (ownText : Bool)
    (f g : Forest) : Prop :=
  ∀ p, write params kind attributes ownText f p = write params kind attributes ownText g p

section
variable {params : Params} {kind : Kind} {attributes : Attributes} {ownText : Bool} {f g : Forest}

theorem WritesAlike.append_right (h : WritesAlike params kind attributes ownText f g) (k : Forest) :
    WritesAlike params kind attributes ownText (f ++ k) (g ++ k) := by
  intro p
  rw [write_append, write_append, h p]

theorem WritesAlike.append_left (h : WritesAlike params kind attributes ownText f g) (k : Forest) :
    WritesAlike params kind attributes ownText (k ++ f) (k ++ g) := by
  intro p
  rw [write_append, write_append, h]

/-- Elements write the same whose bodies do: a directive reads its body for itself, any
other element for the part it stands in. -/
theorem writesAlike_element {name : String} {a : Attributes}
    (h : match DirectiveKind.ofTag? name with
      | some directive => WritesAlike params (.directive directive) a true f g
      | none => WritesAlike params kind attributes false f g) :
    WritesAlike params kind attributes ownText (.element name a f .nil) (.element name a g .nil) := by
  intro p
  cases hd : DirectiveKind.ofTag? name with
  | none =>
    simp only [hd] at h
    simp only [write, hd, h p]
  | some directive =>
    simp only [hd] at h
    simp only [write, hd, h (.start (Rendering.opening directive a) p.own)]

end

end SqlMaps.Template
