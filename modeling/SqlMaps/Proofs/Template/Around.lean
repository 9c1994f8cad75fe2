import SqlMaps.Proofs.Template.Page

/-! What a part writes around itself.

While its body is read, a part has two drafts to write to, its own and that of the part
around it. Only a conditional that holds writes to the second, and of its body only the
texts that stand directly in it, one fragment each (`around_write`); whatever is nested
deeper stays in the part's own draft. The own draft in turn is not touched by what stands
around (`own_write_congr`). -/
namespace SqlMaps.Template
open Markup

/-- The texts that stand directly in a forest. -/
def directTexts : Forest → List String
  | .nil => []
  | .text content next => content :: directTexts next
  | .element _ _ _ next => directTexts next

theorem directTexts_append (f g : Forest) :
    directTexts (f ++ g) = directTexts f ++ directTexts g := by
  induction f with
  | nil => rfl
  | text content next ih => exact congrArg (content :: ·) ih
  | element _ _ _ _ _ ih => exact ih

/-- The texts that a part with the body writes around itself. -/
def textsAround (params : Params) (kind : Kind) (attributes : Attributes) (body : Forest) :
    List String :=
  match kind with
  | .directive (.conditional condition) =>
    if condition.holds params attributes then directTexts body else []
  | _ => []

/-- Texts added as fragments, each behind the prepend. -/
def Draft.addFragments (d : Draft) (prepend : String) (texts : List String) : Draft :=
  texts.foldl (fun d content => d.addFragment prepend content) d

@[simp] theorem Draft.addFragments_nil (d : Draft) (prepend : String) :
    d.addFragments prepend [] = d := rfl

@[simp] theorem Draft.addFragments_cons (d : Draft) (prepend content : String)
    (rest : List String) :
    d.addFragments prepend (content :: rest) =
      (d.addFragment prepend content).addFragments prepend rest := rfl

section
variable {params : Params} {kind : Kind} {attributes : Attributes} {ownText : Bool}

@[simp] theorem textsAround_of_unmet {condition : Condition}
    (h : condition.holds params attributes = false) (body : Forest) :
    textsAround params (.directive (.conditional condition)) attributes body = [] := by
  simp [textsAround, h]

/-- The draft around a part is written to by the texts that stand directly in the part, and
by nothing else in it. -/
theorem around_write (f : Forest) (p : Page) :
    (write params kind attributes ownText f p).around =
      p.around.addFragments (prependOf attributes)
        (if ownText then textsAround params kind attributes f else []) := by
  induction f generalizing kind attributes ownText p with
  | nil =>
    rcases kind with kind | (_ | condition | _) <;> cases ownText <;>
      simp [write, textsAround, directTexts]
  | text content next ih =>
    cases ownText with
    | false => exact ih p
    | true =>
      simp only [write, if_true, ih]
      rcases kind with kind | (_ | condition | _)
      · rfl
      · rfl
      · rw [addText_conditional]
        by_cases h : condition.holds params attributes = true <;>
          simp [textsAround, directTexts, h]
      · rfl
  | element name a inner next ihInner ihNext =>
    have hdirect : textsAround params kind attributes (.element name a inner next) =
        textsAround params kind attributes next := by
      rcases kind with kind | (_ | condition | _) <;> rfl
    rw [hdirect, write]
    split
    · rw [ihNext, ihInner]
      rfl
    · rw [ihNext]
      rfl

/-- What a part writes to its own draft does not hang on what stands around it. -/
theorem own_write_congr (f : Forest) {p q : Page} (h : p.own = q.own) :
    (write params kind attributes ownText f p).own =
      (write params kind attributes ownText f q).own := by
  induction f generalizing kind attributes ownText p q with
  | nil => exact h
  | text content next ih =>
    cases ownText with
    | false => exact ih h
    | true =>
      refine ih ?_
      rcases kind with kind | (_ | condition | _)
      · simp [Page.addText, Rendering.addText, Page.rendering, Rendering.start, h]
      · simp [Page.addText, Rendering.addText, Page.rendering, Rendering.start, h]
      · simp only [if_true, own_addText_conditional, h]
      · simp [Page.addText, Rendering.addText, Page.rendering, Rendering.start, h]
  | element name a inner next ihInner ihNext =>
    simp only [write]
    split
    · exact ihNext (ihInner h)
    · refine ihNext ?_
      simp only [Page.close, h]

/-- What a directive gathers in its own draft; only its attributes and its body decide it. -/
def gathering (params : Params) (directive : DirectiveKind) (attributes : Attributes)
    (body : Forest) : Draft :=
  (write params (.directive directive) attributes true body
    (.start (Rendering.opening directive attributes) .empty)).own

/-- What a directive leaves in the draft of the part it stands in: its fragments, and behind
them what it has gathered. -/
theorem own_close (directive : DirectiveKind) (a : Attributes) (inner : Forest) (p : Page) :
    (p.close params directive a (write params (.directive directive) a true inner
        (.start (Rendering.opening directive a) p.own))).own =
      Rendering.merged params directive a
        (.start (gathering params directive a inner)
          (p.own.addFragments (prependOf a) (textsAround params (.directive directive) a inner))) := by
  have hown : (write params (.directive directive) a true inner
      (.start (Rendering.opening directive a) p.own)).own = gathering params directive a inner :=
    own_write_congr inner rfl
  simp only [Page.close, Page.rendering, around_write, hown, if_true]
  rfl

end

end SqlMaps.Template
