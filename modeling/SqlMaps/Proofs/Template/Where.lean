import SqlMaps.Proofs.Template.Reading

/-! Clauses that are gathered behind a keyword.

A dynamic part that holds nothing but conditionals with a text each is how a template
writes a `WHERE` that is there only if one of its conditions is. `gathered` says what it
comes to, from the clauses that hold alone. `compile_dynamicPart` says that the part
can be exchanged for just this text, wherever it stands in a statement and whatever is
bound: nothing at all if no clause holds, and otherwise the keyword and the clauses on
lines of their own, where a keyword takes the place of the first prepend. -/
namespace SqlMaps.Template
open Markup

/-- A conditional with one text in it. -/
structure Clause where
  condition : Condition
  attributes : Attributes
  text : String
  text_ne : text ≠ ""

namespace Clause

/-- Whether the condition of the clause holds. -/
def holds (params : Params) (c : Clause) : Bool :=
  c.condition.holds params c.attributes

/-- The text of the clause behind its prepend. -/
def fragment (c : Clause) : String :=
  if prependOf c.attributes = "" then c.text else prependOf c.attributes ++ "\n" ++ c.text

/-- Clauses one after another. -/
def forest : List Clause → Forest
  | [] => .nil
  | c :: cs => .element (DirectiveKind.conditional c.condition).tag c.attributes (.text c.text .nil)
      (forest cs)

end Clause

/-- A dynamic part that holds the clauses and nothing else. -/
def dynamicPart (attributes : Attributes) (clauses : List Clause) : Forest :=
  .element DirectiveKind.dynamic.tag attributes (Clause.forest clauses) .nil

/-- Whether another line can begin behind the text. -/
def endsLine (s : String) : Bool :=
  s.toList.getLast?.all fun c => c == '\n' || c == '\r'

/-- A text behind another, on a line of its own. -/
def onNewLine (written s : String) : String :=
  if endsLine written then written ++ s else written ++ "\n" ++ s

/-- What comes of clauses that all hold, behind a prepend. If that is a keyword, the first
clause has no prepend of its own. -/
def gathered (keyword : String) : List Clause → String
  | [] => ""
  | first :: rest =>
    keyword ++ "\n" ++ (rest.map Clause.fragment).foldl onNewLine
      (if isKeyword keyword then first.text else first.fragment)

/-- What stands in for a dynamic part behind some text: nothing, or the text that is
gathered, on a line of its own. -/
def contribution (before keyword : String) (clauses : List Clause) : Forest :=
  match clauses with
  | [] => .nil
  | clauses => .text ((if endsLine before then "" else "\n") ++ gathered keyword clauses) .nil

/-! ### Drafts -/

namespace Draft
variable {d : Draft} {s : String}

theorem atLineStart_eq : d.atLineStart = endsLine d.text := by
  rw [atLineStart, endsLine]
  cases d.text.toList.getLast? <;> rfl

theorem text_merge : (d.merge s).text = onNewLine d.text s := by
  rw [merge, breakLine, atLineStart_eq, onNewLine]
  split <;> rfl

theorem text_addFragment (prepend : String) :
    (d.addFragment prepend s).text =
      onNewLine d.text (if prepend = "" ∨ d.afterKeyword then s else prepend ++ "\n" ++ s) := by
  rw [addFragment]
  split <;> exact text_merge

/-- A clause written into the draft around it. -/
def addClause (d : Draft) (c : Clause) : Draft :=
  d.addFragment (prependOf c.attributes) c.text

@[simp] theorem afterKeyword_addClause (c : Clause) : (d.addClause c).afterKeyword = false :=
  afterKeyword_addFragment _

/-- Away from a keyword every clause is written behind its prepend. -/
theorem text_foldl_addClause (h : d.afterKeyword = false) (clauses : List Clause) :
    (clauses.foldl addClause d).text = (clauses.map Clause.fragment).foldl onNewLine d.text := by
  induction clauses generalizing d with
  | nil => rfl
  | cons c rest ih =>
    have htext : (d.addClause c).text = onNewLine d.text c.fragment := by
      rw [addClause, text_addFragment, h, Clause.fragment]
      simp
    rw [List.foldl_cons, ih (afterKeyword_addClause c), htext]
    rfl

end Draft

/-- Lines are added only, so a text with more of them is not empty. -/
theorem foldl_onNewLine_ne {s : String} (h : s ≠ "") (texts : List String) :
    texts.foldl onNewLine s ≠ "" := by
  induction texts generalizing s with
  | nil => exact h
  | cons t rest ih =>
    refine ih ?_
    rw [onNewLine]
    split <;> simp [h]

theorem Clause.fragment_ne (c : Clause) : c.fragment ≠ "" := by
  rw [fragment]
  split
  · exact c.text_ne
  · simp [c.text_ne]

/-! ### What is written -/

section
variable {params : Params} {attributes : Attributes}

/-- The clauses write those among them that hold, one after another. -/
theorem write_forest (clauses : List Clause) (p : Page) :
    write params (.directive .dynamic) attributes true (Clause.forest clauses) p =
      { p with own := (clauses.filter (Clause.holds params)).foldl Draft.addClause p.own } := by
  induction clauses generalizing p with
  | nil => rfl
  | cons c rest ih =>
    have hclause : write params (.directive .dynamic) attributes true (Clause.forest (c :: rest)) p =
        write params (.directive .dynamic) attributes true (Clause.forest rest)
          { p with own := if c.holds params then p.own.addClause c else p.own } := by
      simp only [Clause.forest, write, DirectiveKind.ofTag?_tag, if_true]
      congr 1
      by_cases hc : c.condition.holds params c.attributes = true <;>
        simp [Clause.holds, hc, Page.close, Page.addText, Page.rendering, Page.start,
          Rendering.addText, Rendering.start, Rendering.merged, Rendering.opening, Draft.empty,
          Draft.addClause]
    rw [hclause, ih, List.filter_cons]
    split <;> rfl

/-- The first clause gathered stands behind its prepend unless a keyword takes its place. -/
theorem text_addClause_opening (first : Clause) :
    ((Rendering.opening .dynamic attributes).addClause first).text =
      if isKeyword (prependOf attributes) then first.text else first.fragment := by
  rw [Draft.addClause, Draft.text_addFragment, Rendering.opening, Draft.empty]
  by_cases hkeyword : isKeyword (prependOf attributes) = true <;>
    simp [onNewLine, endsLine, Clause.fragment, hkeyword]

/-- With the prepend in front, the draft of a dynamic part is what is gathered. -/
theorem text_foldl_opening (first : Clause) (rest : List Clause) :
    prependOf attributes ++ "\n" ++
        ((first :: rest).foldl Draft.addClause (Rendering.opening .dynamic attributes)).text =
      gathered (prependOf attributes) (first :: rest) := by
  rw [List.foldl_cons, Draft.text_foldl_addClause (Draft.afterKeyword_addClause first),
    text_addClause_opening]
  rfl

/-- A clause leaves something in the draft. -/
theorem text_foldl_opening_ne (first : Clause) (rest : List Clause) :
    ((first :: rest).foldl Draft.addClause (Rendering.opening .dynamic attributes)).text ≠ "" := by
  rw [List.foldl_cons, Draft.text_foldl_addClause (Draft.afterKeyword_addClause first),
    text_addClause_opening]
  refine foldl_onNewLine_ne ?_ _
  split
  · exact first.text_ne
  · exact first.fragment_ne

/-- In a statement, a dynamic part writes what its clauses that hold contribute. -/
theorem write_dynamicPart (hprepend : prependOf attributes ≠ "") (clauses : List Clause)
    {kind : StatementKind} {a : Attributes} {p : Page} (hp : p.own.afterKeyword = false) :
    write params (.statement kind) a true (dynamicPart attributes clauses) p =
      write params (.statement kind) a true
        (contribution p.own.text (prependOf attributes) (clauses.filter (Clause.holds params)))
        p := by
  have hpart : write params (.statement kind) a true (dynamicPart attributes clauses) p =
      p.close params .dynamic attributes
        { Page.start (Rendering.opening .dynamic attributes) p.own with
          own := (clauses.filter (Clause.holds params)).foldl Draft.addClause
            (Rendering.opening .dynamic attributes) } := by
    simp only [dynamicPart, write, DirectiveKind.ofTag?_tag, write_forest]
    rfl
  rw [hpart]
  cases hholds : clauses.filter (Clause.holds params) with
  | nil => simp [Page.close, Page.rendering, Page.start, Rendering.merged, Rendering.opening,
      Rendering.start, Draft.empty, contribution, write]
  | cons first rest =>
    have hne := @text_foldl_opening_ne attributes first rest
    have htext := @text_foldl_opening attributes first rest
    have hmerge : p.own.merge (gathered (prependOf attributes) (first :: rest)) =
        p.own.add ((if endsLine p.own.text then "" else "\n") ++
          gathered (prependOf attributes) (first :: rest)) := by
      rw [Draft.merge, Draft.breakLine, Draft.atLineStart_eq]
      split <;> simp [Draft.add, hp, String.append_assoc]
    simp only [Page.close, Page.rendering, Page.start, Rendering.merged, Rendering.start, if_neg hne,
      if_neg hprepend, htext, hmerge, reduceCtorEq, if_false]
    rfl

/-- Nothing in a dynamic part of clauses stands where it may not. -/
theorem wellPlaced_dynamicPart (kind : StatementKind) (root : OpenPart) (clauses : List Clause) :
    Reader.WellPlaced kind root [] (dynamicPart attributes clauses) := by
  have hclauses : ∀ cs : List Clause,
      Reader.WellPlaced kind root [.start DirectiveKind.dynamic.tag attributes]
        (Clause.forest cs) := by
    intro cs
    induction cs with
    | nil => trivial
    | cons c rest ih =>
      exact ⟨by simp only [Reader.misplaced?, DirectiveKind.ofTag?_tag], trivial, ih⟩
  exact ⟨by simp only [Reader.misplaced?, DirectiveKind.ofTag?_tag], hclauses clauses, trivial⟩

/-- A contribution is a text, which may stand anywhere. -/
theorem wellPlaced_contribution (kind : StatementKind) (root : OpenPart) (before keyword : String)
    (clauses : List Clause) :
    Reader.WellPlaced kind root [] (contribution before keyword clauses) := by
  cases clauses <;> trivial

end

/-- A dynamic part directly in a statement is as good as what its clauses that hold
contribute: where the reader stands in the statement, the part can be exchanged for it. -/
theorem compile_dynamicPart {id : String} {before : List Answer} {kind : StatementKind}
    {root : OpenPart} (hbefore : Reader.seeking.after? id before = some (.inside kind root []))
    {attributes : Attributes} (hprepend : prependOf attributes ≠ "") (clauses : List Clause)
    (params : List Param) (rest : List Answer) :
    let written := (Statement.page ⟨kind, root.attributes, root.body⟩ (.ofList params)).own.text
    let held := clauses.filter (Clause.holds (.ofList params))
    compileShown (.answering (before ++ (dynamicPart attributes clauses).events.map .ok ++ rest))
        id params =
      compileShown (.answering
        (before ++ (contribution written (prependOf attributes) held).events.map .ok ++ rest))
        id params := by
  intro written held
  have hafter : ∀ f : Forest, Reader.WellPlaced kind root [] f →
      Reader.seeking.result id (before ++ f.events.map .ok ++ rest) =
        (Reader.inside kind (root.add f) []).result id rest := by
    intro f hf
    rw [List.append_assoc, Reader.result_append hbefore,
      Reader.result_append (Reader.after?_events id hf)]
    rfl
  rw [compileShown_answering, compileShown_answering, hafter _ (wellPlaced_dynamicPart ..),
    hafter _ (wellPlaced_contribution ..)]
  refine (Reader.result_alike (.root (Reader.sameStatement_of_page ?_)) id rest).map_shown
  simp only [Statement.page, write_append]
  exact write_dynamicPart hprepend clauses ((afterKeyword_write root.body).1 rfl)

/-- Of three clauses behind `WHERE` the first has nothing bound: the second stands behind the
keyword without its own prepend, and the third keeps it. -/
theorem compile_dynamicPart_twoHold :
    compileShown
        (.answering
          ([.ok (.start "select" [("id", "q")]), .ok (.text "SELECT a FROM t ")] ++
            (dynamicPart [("prepend", "WHERE")]
              [⟨.isNotNull, [("property", "x"), ("prepend", "AND")], "x = #(x)#", by decide⟩,
                ⟨.isNotNull, [("property", "y"), ("prepend", "AND")], "y = #(y)#", by decide⟩,
                ⟨.isNull, [("property", "x"), ("prepend", "OR")], "x > 5", by decide⟩]).events.map
              .ok ++
            [.ok (.finish "select")]))
        "q" [⟨"y", .integer 2⟩] =
      .ok ⟨"SELECT a FROM t \nWHERE\ny = 2\nOR\nx > 5", []⟩ := by
  have hbefore : Reader.seeking.after? "q"
      [.ok (.start "select" [("id", "q")]), .ok (.text "SELECT a FROM t ")] =
        some (.inside .select ⟨"select", [("id", "q")], .text "SELECT a FROM t " .nil⟩ []) := by
    decide +kernel
  exact (compile_dynamicPart hbefore (by decide) _ _ _).trans (by decide +kernel)

end SqlMaps.Template
