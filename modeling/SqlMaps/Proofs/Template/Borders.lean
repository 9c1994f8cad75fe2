import Mathlib.Data.List.Chain
import SqlMaps.Proofs.Template.Order

/-! Where the texts of different elements meet.

A fragment comes on a line of its own, and so does what is gathered in a directive: neither runs
together with what stands in front of it. Nothing of the kind is done for the texts that stand
directly in a statement or in a dynamic part, which go on where the draft has ended. `trail` says
of every character of a statement which element it comes from, and `compile_keepsApart` that such a
text behind an element is the only place where two elements can meet within a line. -/
namespace SqlMaps.Template
open Markup

/-- An element that writes. Its place is its number among its siblings, in front of that of the
element around it; the statement has none. -/
structure Origin where
  kind : Kind
  place : List Nat
  deriving DecidableEq

/-- A character that is written, and the element it comes from. -/
structure Mark where
  origin : Origin
  char : Char
  deriving DecidableEq

namespace Mark

/-- Whether another line can begin behind the mark. -/
def endsLine (m : Mark) : Bool :=
  m.char == '\n' || m.char == '\r'

/-- Whether the second mark may come behind the first: they are of one element, a line ends between
them, or the second is of a text that stands directly in a statement or in a dynamic part, behind
an element in there that the first comes from. -/
def MayPrecede (m next : Mark) : Prop :=
  m.origin = next.origin ∨ m.endsLine ∨ next.endsLine ∨
    (next.origin.kind.isConditional = false ∧ next.origin.place <:+ m.origin.place)

instance (m next : Mark) : Decidable (m.MayPrecede next) :=
  inferInstanceAs (Decidable (_ ∨ _ ∨ _ ∨ _))

/-- Whether the mark comes from the element of the place, or from one inside it. -/
def Inside (place : List Nat) (m : Mark) : Prop :=
  place <:+ m.origin.place

/-- The text of marks. -/
def text (marks : List Mark) : String :=
  .ofList (marks.map char)

end Mark

/-- A text that an element writes. -/
def Origin.marks (origin : Origin) (s : String) : List Mark :=
  s.toList.map (Mark.mk origin)

/-- A draft of which the origins are known. -/
structure Trail where
  marks : List Mark
  afterKeyword : Bool

namespace Trail

/-- The draft itself. -/
def draft (t : Trail) : Draft :=
  ⟨Mark.text t.marks, t.afterKeyword⟩

/-- Adds a text. -/
def add (t : Trail) (origin : Origin) (s : String) : Trail :=
  { t with marks := t.marks ++ origin.marks s }

/-- Adds marks on a line of its own; the line break comes from the element that adds them. -/
def merge (t : Trail) (origin : Origin) (marks : List Mark) : Trail :=
  ⟨t.marks ++ origin.marks (if endsLine t.draft.text then "" else "\n") ++ marks, false⟩

/-- Adds a fragment on a line of its own, after its prepend unless a keyword has just been
announced. -/
def addFragment (t : Trail) (origin : Origin) (prepend fragment : String) : Trail :=
  t.merge origin
    (origin.marks (if prepend = "" ∨ t.afterKeyword then fragment else prepend ++ "\n" ++ fragment))

/-- Adds what a directive has gathered, if there is any. -/
def addGathered (t : Trail) (origin : Origin) (prepend : String) (gathered : List Mark) : Trail :=
  if gathered = [] then t
  else t.merge origin (origin.marks (if prepend = "" then "" else prepend ++ "\n") ++ gathered)

/-- Adds what a directive leaves that has gathered the marks. -/
def close (params : Params) (origin : Origin) (directive : DirectiveKind) (a : Attributes)
    (inner : Forest) (t : Trail) (gathered : List Mark) : Trail :=
  match directive with
  | .selectKey => t
  | .dynamic => t.addGathered origin (prependOf a) gathered
  | .conditional condition =>
    if condition.holds params a then
      ((directTexts inner).foldl (fun t => t.addFragment origin (prependOf a)) t).addGathered
        origin "" gathered
    else t

end Trail

/-- What is written in an element, of which as many siblings have been read, behind a trail. -/
def trace (params : Params) (origin : Origin) (ownText : Bool) (siblings : Nat) :
    Forest → Trail → Trail
  | .nil, t => t
  | .text content next, t =>
    trace params origin ownText (siblings + 1) next
      (if ownText && !origin.kind.isConditional then t.add origin content else t)
  | .element name a inner next, t =>
    match DirectiveKind.ofTag? name with
    | none =>
      trace params origin ownText (siblings + 1) next
        (trace params ⟨origin.kind, siblings :: origin.place⟩ false 0 inner t)
    | some directive =>
      let child : Origin := ⟨.directive directive, siblings :: origin.place⟩
      let gathered := trace params child true 0 inner
        ⟨[], (Rendering.opening directive a).afterKeyword⟩
      trace params origin ownText (siblings + 1) next
        (t.close params child directive a inner gathered.marks)

/-- The statement as it is written, with the origin of every character. -/
def Statement.trail (statement : Statement) (params : Params) : Trail :=
  trace params ⟨.statement statement.kind, []⟩ true 0 statement.body ⟨[], false⟩

/-! ### The text of a trail -/

@[simp] theorem Mark.text_append (marks marks' : List Mark) :
    text (marks ++ marks') = text marks ++ text marks' := by
  simp [text]

@[simp] theorem Mark.text_marks (origin : Origin) (s : String) : text (origin.marks s) = s := by
  simp [text, Origin.marks, Function.comp_def]

theorem Mark.text_eq_empty {marks : List Mark} : text marks = "" ↔ marks = [] := by
  simp [text]

namespace Trail
variable {params : Params} {origin : Origin} {t : Trail}

theorem draft_add (s : String) : (t.add origin s).draft = t.draft.add s := by
  simp [draft, add, Draft.add]

theorem draft_merge (marks : List Mark) :
    (t.merge origin marks).draft = t.draft.merge (Mark.text marks) := by
  have htext : Mark.text (t.merge origin marks).marks = (t.draft.merge (Mark.text marks)).text := by
    rw [Draft.text_merge, onNewLine, merge]
    split <;> simp [draft, String.append_assoc]
  exact congrArg (Draft.mk · false) htext

theorem draft_addFragment (prepend fragment : String) :
    (t.addFragment origin prepend fragment).draft = t.draft.addFragment prepend fragment := by
  rw [addFragment, draft_merge, Mark.text_marks, Draft.addFragment]
  exact apply_ite t.draft.merge _ _ _

theorem draft_addFragments (prepend : String) (texts : List String) :
    (texts.foldl (fun t => t.addFragment origin prepend) t).draft =
      t.draft.addFragments prepend texts := by
  induction texts generalizing t with
  | nil => rfl
  | cons content rest ih => rw [List.foldl_cons, ih, draft_addFragment, Draft.addFragments_cons]

theorem draft_addGathered (prepend : String) (gathered : List Mark) :
    (t.addGathered origin prepend gathered).draft =
      if Mark.text gathered = "" then t.draft
      else if prepend = "" then t.draft.merge (Mark.text gathered)
      else t.draft.merge (prepend ++ "\n" ++ Mark.text gathered) := by
  simp only [addGathered, Mark.text_eq_empty]
  split
  · rfl
  · rw [draft_merge, Mark.text_append, Mark.text_marks]
    split
    · rw [String.empty_append]
    · rfl

/-- A directive leaves in a trail what it leaves in the draft. -/
theorem draft_close (directive : DirectiveKind) (a : Attributes) (inner : Forest)
    {gathered : List Mark} {d : Draft} (h : directive ≠ .selectKey → Mark.text gathered = d.text) :
    (t.close params origin directive a inner gathered).draft =
      Rendering.merged params directive a
        (.start d (t.draft.addFragments (prependOf a)
          (textsAround params (.directive directive) a inner))) := by
  cases directive with
  | selectKey => rfl
  | dynamic =>
    rw [close, draft_addGathered, h (by simp)]
    rfl
  | conditional condition =>
    simp only [close, Rendering.merged, textsAround, Rendering.start]
    split
    · rename_i hholds
      rw [draft_addGathered, draft_addFragments, h (by simp)]
      simp [hholds]
    · rename_i hunmet
      simp [hunmet]

end Trail

section
variable {params : Params} {origin : Origin} {attributes : Attributes} {ownText : Bool}

/-- A trail has the text that is written. -/
theorem draft_trace (f : Forest) (hkind : origin.kind ≠ .directive .selectKey) (siblings : Nat)
    {t : Trail} {p : Page} (h : t.draft = p.own) :
    (trace params origin ownText siblings f t).draft =
      (write params origin.kind attributes ownText f p).own := by
  induction f generalizing origin attributes ownText siblings t p with
  | nil => exact h
  | text content next ih =>
    cases ownText with
    | false => exact ih hkind _ h
    | true =>
      refine ih hkind _ ?_
      obtain ⟨kind, place⟩ := origin
      rcases kind with kind | (_ | condition | _)
      · exact (Trail.draft_add content).trans (congrArg (Draft.add · content) h)
      · exact (Trail.draft_add content).trans (congrArg (Draft.add · content) h)
      · rw [if_pos rfl, own_addText_conditional]
        exact h
      · exact absurd rfl hkind
  | element name a inner next ihInner ihNext =>
    simp only [trace, write]
    cases DirectiveKind.ofTag? name with
    | none =>
      refine ihNext hkind _ ?_
      exact @ihInner ⟨origin.kind, siblings :: origin.place⟩ attributes false hkind 0 _ _ h
    | some directive =>
      refine ihNext hkind _ ?_
      -- The trail of a select key differs from its draft, and neither is left in the part around it.
      rw [own_close, ← h]
      refine Trail.draft_close directive a inner fun hdirective => ?_
      have hgathered := @ihInner ⟨.directive directive, siblings :: origin.place⟩ a true
        (by simpa using hdirective) 0 ⟨[], (Rendering.opening directive a).afterKeyword⟩
        (.start (Rendering.opening directive a) .empty) rfl
      exact congrArg Draft.text hgathered

end

theorem Statement.text_trail (statement : Statement) (params : Params) :
    Mark.text (statement.trail params).marks = statement.written params := by
  rw [Statement.written, statement.own_rendering]
  exact congrArg Draft.text (draft_trace statement.body (by simp) 0 rfl)

/-! ### Neighbours -/

theorem Origin.isChain_marks (origin : Origin) (s : String) :
    (origin.marks s).IsChain Mark.MayPrecede := by
  rw [Origin.marks, List.isChain_map]
  exact (List.pairwise_of_forall fun _ _ => .inl rfl).isChain

namespace Trail
variable {params : Params} {origin : Origin} {t : Trail}

/-- At the start of a line anything may come. -/
theorem mayPrecede_of_endsLine (h : endsLine t.draft.text = true) {m next : Mark}
    (hm : m ∈ t.marks.getLast?) : m.MayPrecede next := by
  have hlast : t.draft.text.toList.getLast? = some m.char := by
    have hmarks : t.marks.getLast? = some m := hm
    simp [draft, Mark.text, List.getLast?_map, hmarks]
  rw [endsLine, hlast] at h
  exact .inr (.inl h)

/-- Marks on a line of their own are apart from what stands in front of them. -/
theorem isChain_merge (ht : t.marks.IsChain Mark.MayPrecede) {marks : List Mark}
    (hmarks : marks.IsChain Mark.MayPrecede) :
    (t.merge origin marks).marks.IsChain Mark.MayPrecede := by
  simp only [merge]
  split
  · rename_i hends
    rw [Origin.marks, String.toList_empty, List.map_nil, List.append_nil]
    exact ht.append hmarks fun m hm _ _ => mayPrecede_of_endsLine hends hm
  · have hbreak : (origin.marks "\n" ++ marks).IsChain Mark.MayPrecede :=
      hmarks.cons fun _ _ => .inr (.inl rfl)
    rw [List.append_assoc]
    refine ht.append hbreak fun m _ next hnext => ?_
    obtain rfl : ⟨origin, '\n'⟩ = next := Option.some.inj hnext
    exact .inr (.inr (.inl rfl))

theorem isChain_addFragments (ht : t.marks.IsChain Mark.MayPrecede) (prepend : String)
    (texts : List String) :
    (texts.foldl (fun t => t.addFragment origin prepend) t).marks.IsChain Mark.MayPrecede := by
  induction texts generalizing t with
  | nil => exact ht
  | cons content rest ih => exact ih (isChain_merge ht (origin.isChain_marks _))

theorem isChain_addGathered (ht : t.marks.IsChain Mark.MayPrecede) (prepend : String)
    {gathered : List Mark} (hgathered : gathered.IsChain Mark.MayPrecede) :
    (t.addGathered origin prepend gathered).marks.IsChain Mark.MayPrecede := by
  rw [addGathered]
  split
  · exact ht
  · refine isChain_merge ht ?_
    split
    · exact hgathered
    · refine (origin.isChain_marks _).append hgathered fun m hm _ _ => ?_
      obtain rfl : ⟨origin, '\n'⟩ = m := by
        simpa [Origin.marks] using hm
      exact .inr (.inl rfl)

theorem isChain_close (ht : t.marks.IsChain Mark.MayPrecede) (directive : DirectiveKind)
    (a : Attributes) (inner : Forest) {gathered : List Mark}
    (hgathered : gathered.IsChain Mark.MayPrecede) :
    (t.close params origin directive a inner gathered).marks.IsChain Mark.MayPrecede := by
  cases directive with
  | selectKey => exact ht
  | dynamic => exact isChain_addGathered ht _ hgathered
  | conditional condition =>
    simp only [close]
    split
    · exact isChain_addGathered (isChain_addFragments ht _ _) _ hgathered
    · exact ht

end Trail

/-! ### Where marks come from -/

namespace Trail
variable {params : Params} {origin : Origin} {t : Trail} {place : List Nat}

theorem inside_marks (horigin : place <:+ origin.place) (s : String) :
    ∀ m ∈ origin.marks s, m.Inside place := by
  rw [Origin.marks, List.forall_mem_map]
  exact fun _ _ => horigin

theorem inside_add (horigin : place <:+ origin.place) (ht : ∀ m ∈ t.marks, m.Inside place)
    (s : String) : ∀ m ∈ (t.add origin s).marks, m.Inside place :=
  List.forall_mem_append.2 ⟨ht, inside_marks horigin s⟩

section
variable (horigin : place <:+ origin.place) (ht : ∀ m ∈ t.marks, m.Inside place)
include horigin ht

theorem inside_merge {marks : List Mark} (hmarks : ∀ m ∈ marks, m.Inside place) :
    ∀ m ∈ (t.merge origin marks).marks, m.Inside place := by
  rw [merge, List.forall_mem_append, List.forall_mem_append]
  exact ⟨⟨ht, inside_marks horigin _⟩, hmarks⟩

theorem inside_addFragments (prepend : String) (texts : List String) :
    ∀ m ∈ (texts.foldl (fun t => t.addFragment origin prepend) t).marks, m.Inside place := by
  induction texts generalizing t with
  | nil => exact ht
  | cons content rest ih =>
    exact ih (inside_merge horigin ht (inside_marks horigin _))

theorem inside_addGathered (prepend : String) {gathered : List Mark}
    (hgathered : ∀ m ∈ gathered, m.Inside place) :
    ∀ m ∈ (t.addGathered origin prepend gathered).marks, m.Inside place := by
  rw [addGathered]
  split
  · exact ht
  · exact inside_merge horigin ht (List.forall_mem_append.2 ⟨inside_marks horigin _, hgathered⟩)

theorem inside_close (directive : DirectiveKind) (a : Attributes) (inner : Forest)
    {gathered : List Mark} (hgathered : ∀ m ∈ gathered, m.Inside place) :
    ∀ m ∈ (t.close params origin directive a inner gathered).marks, m.Inside place := by
  cases directive with
  | selectKey => exact ht
  | dynamic => exact inside_addGathered horigin ht _ hgathered
  | conditional condition =>
    simp only [close]
    split
    · exact inside_addGathered horigin (inside_addFragments horigin ht _ _) _ hgathered
    · exact ht

end

end Trail

section
variable {params : Params} {origin : Origin} {ownText : Bool} {t : Trail}

/-- What is written in an element comes from it or from one inside it. -/
theorem inside_trace {place : List Nat} (horigin : place <:+ origin.place)
    (ht : ∀ m ∈ t.marks, m.Inside place) (siblings : Nat) (f : Forest) :
    ∀ m ∈ (trace params origin ownText siblings f t).marks, m.Inside place := by
  induction f generalizing origin ownText siblings t with
  | nil => exact ht
  | text content next ih =>
    refine ih horigin ?_ _
    split
    · exact Trail.inside_add horigin ht content
    · exact ht
  | element name a inner next ihInner ihNext =>
    have hchild : place <:+ siblings :: origin.place := horigin.trans (List.suffix_cons ..)
    simp only [trace]
    cases DirectiveKind.ofTag? name with
    | none => exact ihNext horigin (@ihInner ⟨origin.kind, _⟩ false _ hchild ht 0) _
    | some directive =>
      refine ihNext horigin (Trail.inside_close hchild ht directive a inner ?_) _
      exact @ihInner ⟨.directive directive, _⟩ true ⟨[], _⟩ hchild nofun 0

/-- Behind marks from inside the part, what is written keeps neighbours apart but for the texts
that stand directly in the part. -/
theorem isChain_trace (ht : t.marks.IsChain Mark.MayPrecede)
    (hinside : ownText = true → ∀ m ∈ t.marks, m.Inside origin.place) (siblings : Nat) (f : Forest) :
    (trace params origin ownText siblings f t).marks.IsChain Mark.MayPrecede := by
  -- An element that only groups goes on with marks from outside of it, but writes no text there.
  induction f generalizing origin ownText siblings t with
  | nil => exact ht
  | text content next ih =>
    simp only [trace]
    split
    · rename_i hown
      obtain ⟨rfl, hkind⟩ : ownText = true ∧ origin.kind.isConditional = false := by
        simpa using hown
      refine ih ?_ (fun _ => Trail.inside_add (List.suffix_refl _) (hinside rfl) content) _
      refine ht.append (origin.isChain_marks content) fun m hm next hnext => ?_
      obtain ⟨c, -, rfl⟩ := List.mem_map.1 (List.mem_of_mem_head? hnext)
      exact .inr (.inr (.inr ⟨hkind, hinside rfl m (List.mem_of_mem_getLast? hm)⟩))
    · exact ih ht hinside _
  | element name a inner next ihInner ihNext =>
    have hchild : origin.place <:+ siblings :: origin.place := List.suffix_cons ..
    simp only [trace]
    cases DirectiveKind.ofTag? name with
    | none =>
      refine ihNext (@ihInner ⟨origin.kind, _⟩ false _ ht nofun 0) (fun hown => ?_) _
      exact inside_trace hchild (hinside hown) 0 inner
    | some directive =>
      refine ihNext (Trail.isChain_close ht directive a inner ?_) (fun hown => ?_) _
      · exact @ihInner ⟨.directive directive, _⟩ true ⟨[], _⟩ .nil (fun _ => nofun) 0
      · exact Trail.inside_close hchild (hinside hown) directive a inner
          (inside_trace (t := ⟨[], _⟩) hchild nofun 0 inner)

end

/-- Where two elements meet in what is written of a statement, a line ends between them, unless the
second writes a text that stands directly in the statement, or in a dynamic part, and the first
stands inside the same part. -/
theorem compile_keepsApart {source : Source} {id : String} {params : List Param}
    {query : CompiledQuery} (h : compile source id params = .ok query) :
    ∃ s, source.statement? id = some s ∧
      query.sql = substitute (.ofList params) (Text.trimmed (s.written (.ofList params))) ∧
      Mark.text (s.trail (.ofList params)).marks = s.written (.ofList params) ∧
      (s.trail (.ofList params)).marks.IsChain Mark.MayPrecede := by
  obtain ⟨s, hs, rfl⟩ := compile_eq_ok_iff.1 h
  exact ⟨s, hs, rfl, s.text_trail _, isChain_trace (t := ⟨[], false⟩) .nil (fun _ => nofun) 0 s.body⟩

/-- A conditional, the prepend of the dynamic part around it, and a text behind that part. -/
theorem compile_keepsApart_textBehind :
    let body : Forest :=
      .text "SELECT a FROM t"
        (.element "dynamic" [("prepend", "WHERE")]
          (.element "isNull" [("property", "x"), ("prepend", "AND")] (.text "a = 1" .nil) .nil)
          (.text " ORDER BY a" .nil))
    let s : Statement := ⟨.select, [("id", "q")], body⟩
    Source.statement? "q" (.ofForest (.element "select" [("id", "q")] body .nil)) = some s ∧
      Mark.text (s.trail (.ofList [])).marks = "SELECT a FROM t\nWHERE\na = 1 ORDER BY a" ∧
      (s.trail (.ofList [])).marks.IsChain Mark.MayPrecede := by
  intro body s
  have hstatement : Source.statement? "q" (.ofForest (.element "select" [("id", "q")] body .nil)) =
      some s := by decide +kernel
  have hwritten : s.written (.ofList []) = "SELECT a FROM t\nWHERE\na = 1 ORDER BY a" := by
    decide +kernel
  obtain ⟨s', hs', -, htext, hchain⟩ := compile_keepsApart (compile_eq_ok_iff.2 ⟨s, hstatement, rfl⟩)
  obtain rfl : s = s' := Option.some.inj (hstatement.symm.trans hs')
  exact ⟨hstatement, htext.trans hwritten, hchain⟩

/-- Without white space of its own, the text behind a dynamic part runs together with what stands
in it. -/
theorem trail_runsTogether :
    let body : Forest :=
      .text "SELECT a FROM t"
        (.element "dynamic" [("prepend", "WHERE")] (.text "a = 1" .nil) (.text "ORDER BY a" .nil))
    let s : Statement := ⟨.select, [("id", "q")], body⟩
    compileShown (.ofForest (.element "select" [("id", "q")] body .nil)) "q" [] =
        .ok ⟨"SELECT a FROM t\nWHERE\na = 1ORDER BY a", []⟩ ∧
      [⟨⟨.directive .dynamic, [1]⟩, '1'⟩, ⟨⟨.statement .select, []⟩, 'O'⟩] <:+:
        (s.trail (.ofList [])).marks ∧
      Text.isBlank '1' = false ∧ Text.isBlank 'O' = false := by
  decide +kernel

end SqlMaps.Template
