import SqlMaps.Proofs.Markup.Cutting
import SqlMaps.Proofs.Template.Reading

/-! White space at the ends of a text that is trimmed.

What is written behind a text hangs on its end only, so text in front of it stays in
front (`write_behind`). A statement is trimmed when it is complete, and a select key when
it ends; so white space that such a text begins with, or ends with, shows nowhere. -/
namespace SqlMaps.Template
open Markup

namespace Draft
variable {d : Draft}

/-- The draft with a text in front. -/
def behind (front : String) (d : Draft) : Draft :=
  { d with text := front ++ d.text }

theorem text_merge_ne (s : String) (h : d.text ≠ "") : (d.merge s).text ≠ "" := by
  rw [merge, breakLine]
  split <;> simp [add, h]

theorem merge_behind (h : d.text ≠ "") (front s : String) :
    (d.behind front).merge s = (d.merge s).behind front := by
  have hend : (d.behind front).atLineStart = d.atLineStart := by
    have hlist : d.text.toList ≠ [] := by simpa using h
    cases hc : d.text.toList.getLast? with
    | none => exact absurd (List.getLast?_eq_none_iff.1 hc) hlist
    | some c => simp [atLineStart, behind, List.getLast?_append, hc]
  rw [merge, merge, breakLine, breakLine, hend]
  split <;> simp [behind, add, String.append_assoc]

theorem addFragment_behind (h : d.text ≠ "") (front prepend s : String) :
    (d.behind front).addFragment prepend s = (d.addFragment prepend s).behind front := by
  rw [addFragment, addFragment]
  simp only [merge_behind h]
  show (if prepend = "" ∨ d.afterKeyword = true then _ else _) = _
  split <;> rfl

theorem text_addFragment_ne (prepend s : String) (h : d.text ≠ "") :
    (d.addFragment prepend s).text ≠ "" := by
  rw [addFragment]
  split <;> exact text_merge_ne _ h

end Draft

section
variable {params : Params} {kind : Kind} {attributes : Attributes} {ownText : Bool}

theorem merged_behind {inner : Rendering} (h : inner.around.text ≠ "") (directive : DirectiveKind)
    (front : String) :
    Rendering.merged params directive attributes
        { inner with around := inner.around.behind front } =
      (Rendering.merged params directive attributes inner).behind front ∧
    (Rendering.merged params directive attributes inner).text ≠ "" := by
  cases directive with
  | selectKey => exact ⟨rfl, h⟩
  | dynamic =>
    simp only [Rendering.merged, Draft.merge_behind h]
    split
    · exact ⟨rfl, h⟩
    · split <;> exact ⟨rfl, Draft.text_merge_ne _ h⟩
  | conditional condition =>
    simp only [Rendering.merged, Draft.merge_behind h]
    split
    · exact ⟨rfl, h⟩
    · exact ⟨rfl, Draft.text_merge_ne _ h⟩

/-- A text in front of what stands around a part stays in front of it. -/
theorem write_around_behind (front : String) (f : Forest) {p : Page} (h : p.around.text ≠ "") :
    write params kind attributes ownText f { p with around := p.around.behind front } =
      { write params kind attributes ownText f p with
        around := (write params kind attributes ownText f p).around.behind front } ∧
    (write params kind attributes ownText f p).around.text ≠ "" := by
  induction f generalizing kind attributes ownText p with
  | nil => exact ⟨rfl, h⟩
  | text content next ih =>
    have htext : { p with around := p.around.behind front }.addText params kind attributes content =
        { p.addText params kind attributes content with
          around := (p.addText params kind attributes content).around.behind front } ∧
        (p.addText params kind attributes content).around.text ≠ "" := by
      rcases kind with kind | (_ | condition | _)
      · exact ⟨rfl, h⟩
      · exact ⟨rfl, h⟩
      · by_cases hc : condition.holds params attributes = true <;>
          simp [Page.addText, Rendering.addText, Page.rendering, Rendering.start, hc, h,
            Draft.addFragment_behind h, Draft.text_addFragment_ne _ _ h]
      · exact ⟨rfl, h⟩
    cases ownText with
    | false => exact ih h
    | true =>
      simp only [write, if_true, htext.1]
      exact ih htext.2
  | element name a inner next ihInner ihNext =>
    simp only [write]
    split
    · rw [(ihInner h).1]
      exact ihNext (ihInner h).2
    · exact ihNext (p := p.close params _ a _) h

/-- A text in front of what a part has written stays in front of it. -/
theorem write_behind (front : String) (f : Forest) {p : Page} (h : p.own.text ≠ "") :
    write params kind attributes ownText f { p with own := p.own.behind front } =
      { write params kind attributes ownText f p with
        own := (write params kind attributes ownText f p).own.behind front } ∧
    (write params kind attributes ownText f p).own.text ≠ "" := by
  induction f generalizing kind attributes ownText p with
  | nil => exact ⟨rfl, h⟩
  | text content next ih =>
    have htext : { p with own := p.own.behind front }.addText params kind attributes content =
        { p.addText params kind attributes content with
          own := (p.addText params kind attributes content).own.behind front } ∧
        (p.addText params kind attributes content).own.text ≠ "" := by
      rcases kind with kind | (_ | condition | _)
      · simp [Page.addText, Rendering.addText, Page.rendering, Rendering.start, Draft.add,
          Draft.behind, String.append_assoc, h]
      · simp [Page.addText, Rendering.addText, Page.rendering, Rendering.start, Draft.add,
          Draft.behind, String.append_assoc, h]
      · by_cases hc : condition.holds params attributes = true <;>
          simp [Page.addText, Rendering.addText, Page.rendering, Rendering.start, hc, h]
      · simp [Page.addText, Rendering.addText, Page.rendering, Rendering.start, Draft.add,
          Draft.behind, String.append_assoc, h]
    cases ownText with
    | false => exact ih h
    | true =>
      simp only [write, if_true, htext.1]
      exact ih htext.2
  | element name a inner next ihInner ihNext =>
    simp only [write]
    split
    · rw [(ihInner h).1]
      exact ihNext (ihInner h).2
    · rename_i directive _
      let body := write params (.directive directive) a true inner
        (.start (Rendering.opening directive a) p.own)
      obtain ⟨hbody, hne⟩ : write params (.directive directive) a true inner
            (.start (Rendering.opening directive a) (p.own.behind front)) =
          { body with around := body.around.behind front } ∧ body.around.text ≠ "" :=
        write_around_behind front inner (p := .start (Rendering.opening directive a) p.own) h
      obtain ⟨hmerged, hown⟩ := @merged_behind params a body.rendering hne directive front
      have hclose : { p with own := p.own.behind front }.close params directive a
            { body with around := body.around.behind front } =
          { p.close params directive a body with
            own := (p.close params directive a body).own.behind front } :=
        congrArg (fun own => { p.close params directive a body with own := own }) hmerged
      rw [hbody, hclose]
      exact ihNext hown

end

/-! ### Trimmed texts -/

theorem trimmed_append_left {front : String} (h : Text.allBlank front.toList = true) (s : String) :
    Text.trimmed (front ++ s) = Text.trimmed s := by
  rw [Text.trimmed, Text.trimmed, String.toList_append, Text.trim, Text.trimStart_append h]
  rfl

theorem trimmed_append_right {back : String} (h : Text.allBlank back.toList = true) (s : String) :
    Text.trimmed (s ++ back) = Text.trimmed s := by
  have hback : ∀ l : List Char, Text.trimEnd (l ++ back.toList) = Text.trimEnd l := by
    intro l
    have hreverse : Text.allBlank back.toList.reverse = true := by simpa [Text.allBlank] using h
    rw [Text.trimEnd, List.reverse_append]
    exact congrArg List.reverse (Text.trimStart_append hreverse)
  rw [Text.trimmed, Text.trimmed, String.toList_append, Text.trim, Text.trim, Text.trimStart,
    Text.trimStart, List.dropWhile_append]
  split
  · rename_i hempty
    have hnone : back.toList.dropWhile Text.isBlank = [] := by
      simpa [Text.trimStart] using Text.trimStart_append (s := []) h
    rw [List.isEmpty_iff.1 hempty, hnone]
  · rw [hback]

section
variable {params : Params} {kind : StatementKind} {attributes : Attributes} {body : Forest}

/-- White space in front of the first text of a statement shows nowhere. -/
theorem sameStatement_leading
    (hbody : (Statement.page ⟨kind, attributes, body⟩ params).own.text = "")
    {front s : String} (hfront : Text.allBlank front.toList = true) (hs : s ≠ "") :
    Reader.SameStatement params kind attributes (body ++ .text (front ++ s) .nil)
      (body ++ .text s .nil) := by
  intro k
  let p := Statement.page ⟨kind, attributes, body⟩ params
  have hpage : ∀ content : String,
      Statement.page ⟨kind, attributes, body ++ .text content .nil ++ k⟩ params =
        write params (.statement kind) attributes true k { p with own := p.own.add content } := by
    intro content
    simp only [Statement.page, write_append]
    rfl
  have hadd : p.own.add (front ++ s) = (p.own.add s).behind front := by
    have hown : p.own.text = "" := hbody
    simp [Draft.add, Draft.behind, hown]
  have hne : (p.own.add s).text ≠ "" := by simp [Draft.add, hs]
  have hbehind := (@write_behind params (.statement kind) attributes true front k
    { p with own := p.own.add s } hne).1
  rw [Statement.shown_compile, Statement.shown_compile, hpage, hpage, hadd, hbehind]
  simp only [Draft.behind, trimmed_append_left hfront]

/-- White space behind the last text of a statement shows nowhere. -/
theorem shown_trailing {back s : String} (hback : Text.allBlank back.toList = true) :
    (Statement.compile ⟨kind, attributes, body ++ .text (s ++ back) .nil⟩ params).shown =
      (Statement.compile ⟨kind, attributes, body ++ .text s .nil⟩ params).shown := by
  let p := Statement.page ⟨kind, attributes, body⟩ params
  have hpage : ∀ content : String,
      Statement.page ⟨kind, attributes, body ++ .text content .nil⟩ params =
        { p with own := p.own.add content } := by
    intro content
    simp only [Statement.page, write_append]
    rfl
  rw [Statement.shown_compile, Statement.shown_compile, hpage, hpage]
  simp only [Draft.add, ← String.append_assoc, trimmed_append_right hback]

end

end SqlMaps.Template
