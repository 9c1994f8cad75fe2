import SqlMaps.Proofs.Template.Selection
import SqlMaps.Proofs.Template.Unmet
import SqlMaps.Proofs.Template.Where

/-! The order of the texts in a statement.

A conditional hands its own texts to the part around it at once and what is nested in it when
it ends, so its own texts come first, wherever they stand among its directives. Everything
else keeps its place. `writtenTexts` lists the texts of a statement in this order, and
`compile_keepsOrder` says that the text of the statement is made of just these, once each,
with nothing but line breaks and prepends between them. That is the order of the template
as long as no text of a conditional stands behind a directive in it. -/
namespace SqlMaps.Template
open Markup

/-- The texts that show, in the order in which they stand in the tree: those directly in a
statement, a dynamic part or a conditional, outside of select keys and of conditionals that
do not hold. -/
def documentTexts (params : Params) (ownText : Bool) : Forest → List String
  | .nil => []
  | .text content next =>
    (if ownText then [content] else []) ++ documentTexts params ownText next
  | .element name a inner next =>
    (match DirectiveKind.ofTag? name with
      | none => documentTexts params false inner
      | some .selectKey => []
      | some .dynamic => documentTexts params true inner
      | some (.conditional condition) =>
        if condition.holds params a then documentTexts params true inner else []) ++
      documentTexts params ownText next

/-- The same texts in the order in which they are written: those directly in a conditional
come before those nested in it. -/
def writtenTexts (params : Params) (ownText : Bool) : Forest → List String
  | .nil => []
  | .text content next =>
    (if ownText then [content] else []) ++ writtenTexts params ownText next
  | .element name a inner next =>
    (match DirectiveKind.ofTag? name with
      | none => writtenTexts params false inner
      | some .selectKey => []
      | some .dynamic => writtenTexts params true inner
      | some (.conditional condition) =>
        if condition.holds params a then directTexts inner ++ writtenTexts params false inner
        else []) ++
      writtenTexts params ownText next

/-- No text stands behind an element. -/
def TextsFirst : Forest → Prop
  | .nil => True
  | .text _ next => TextsFirst next
  | .element _ _ _ next => directTexts next = []

/-- In every conditional the texts stand in front of the directives. -/
def Led : Forest → Prop
  | .nil => True
  | .text _ next => Led next
  | .element name _ inner next =>
    (∀ condition, DirectiveKind.ofTag? name = some (.conditional condition) → TextsFirst inner) ∧
      Led inner ∧ Led next

/-- The text is made of the texts, in their order, with additions between them. -/
inductive Woven (added : String → Prop) : List String → String → Prop
  | nil : Woven added [] ""
  | text (content : String) {texts : List String} {written : String} :
      Woven added texts written → Woven added (content :: texts) (content ++ written)
  | addition {s : String} {texts : List String} {written : String} :
      added s → Woven added texts written → Woven added texts (s ++ written)

/-- The prepends in the tree. -/
def prepends : Forest → List String
  | .nil => []
  | .text _ next => prepends next
  | .element _ a inner next => prependOf a :: prepends inner ++ prepends next

/-- What rendering adds to the texts: line breaks, and prepends on lines of their own. -/
def Added (tree : Forest) (s : String) : Prop :=
  s = "\n" ∨ ∃ prepend ∈ prepends tree, s = prepend ++ "\n"

/-! ### Weaving -/

section
variable {added : String → Prop} {texts texts' : List String} {s t : String}

theorem Woven.append (h : Woven added texts s) (h' : Woven added texts' t) :
    Woven added (texts ++ texts') (s ++ t) := by
  induction h with
  | nil => simpa using h'
  | text content _ ih => simpa [String.append_assoc] using ih.text content
  | addition hadded _ ih => simpa [String.append_assoc] using ih.addition hadded

theorem woven_single (content : String) : Woven added [content] content := by
  have h : Woven added [content] (content ++ "") := .text content .nil
  rwa [String.append_empty] at h

/-- Texts that come to nothing may stand anywhere. -/
theorem Woven.append_empty (h : Woven added texts s) (h' : Woven added texts' "") :
    Woven added (texts ++ texts') s := by
  simpa using h.append h'

theorem woven_onNewLine (hbreak : added "\n") (h : Woven added texts s)
    (h' : Woven added texts' t) : Woven added (texts ++ texts') (onNewLine s t) := by
  rw [onNewLine]
  split
  · exact h.append h'
  · rw [String.append_assoc]
    exact h.append (.addition hbreak h')

theorem woven_merge {d : Draft} (hbreak : added "\n") (h : Woven added texts d.text)
    (h' : Woven added texts' t) : Woven added (texts ++ texts') (d.merge t).text := by
  rw [Draft.text_merge]
  exact woven_onNewLine hbreak h h'

/-- What is woven holds the characters of the texts in their order. -/
theorem Woven.sublist (h : Woven added texts s) :
    (texts.flatMap String.toList).Sublist s.toList := by
  induction h with
  | nil => exact .refl _
  | text content _ ih =>
    rw [List.flatMap_cons, String.toList_append]
    exact ih.append_left _
  | addition _ _ ih =>
    rw [String.toList_append]
    exact ih.trans (List.sublist_append_right _ _)

theorem woven_behind {prepend : String} (hprepend : added (prepend ++ "\n"))
    (h : Woven added texts s) : Woven added texts (prepend ++ "\n" ++ s) :=
  .addition hprepend h

theorem woven_addFragments {d : Draft} {prepend : String} (hbreak : added "\n")
    (hprepend : added (prepend ++ "\n")) (h : Woven added texts d.text) (fragments : List String) :
    Woven added (texts ++ fragments) (d.addFragments prepend fragments).text := by
  induction fragments generalizing d texts with
  | nil => simpa using h
  | cons content rest ih =>
    have hfragment : Woven added (texts ++ [content]) (d.addFragment prepend content).text := by
      rw [Draft.text_addFragment]
      split
      · exact woven_onNewLine hbreak h (woven_single content)
      · exact woven_onNewLine hbreak h (woven_behind hprepend (woven_single content))
    simpa using ih hfragment

end

/-! ### What is written -/

section
variable {params : Params} {added : String → Prop}

/-- A dynamic part leaves what it has gathered, behind its prepend. -/
theorem woven_dynamic (hbreak : added "\n") {a : Attributes}
    (hprepend : added (prependOf a ++ "\n")) {gathered d : Draft} {texts texts' : List String}
    (h : Woven added texts d.text) (hgathered : Woven added texts' gathered.text) :
    Woven added (texts ++ texts')
      (Rendering.merged params .dynamic a (.start gathered d)).text := by
  by_cases hempty : gathered.text = ""
  · rw [hempty] at hgathered
    simpa [Rendering.merged, Rendering.start, hempty] using h.append_empty hgathered
  · by_cases hnone : prependOf a = ""
    · simpa [Rendering.merged, Rendering.start, hempty, hnone] using woven_merge hbreak h hgathered
    · simpa [Rendering.merged, Rendering.start, hempty, hnone] using
        woven_merge hbreak h (woven_behind hprepend hgathered)

/-- A conditional that holds leaves what it has gathered. -/
theorem woven_conditional (hbreak : added "\n") {condition : Condition} {a : Attributes}
    (hholds : condition.holds params a = true) {gathered d : Draft} {texts texts' : List String}
    (h : Woven added texts d.text) (hgathered : Woven added texts' gathered.text) :
    Woven added (texts ++ texts')
      (Rendering.merged params (.conditional condition) a (.start gathered d)).text := by
  by_cases hempty : gathered.text = ""
  · rw [hempty] at hgathered
    simpa [Rendering.merged, Rendering.start, hempty] using h.append_empty hgathered
  · simpa [Rendering.merged, Rendering.start, hempty, hholds] using woven_merge hbreak h hgathered

/-- Behind what a part other than a select key has in its draft, its texts are written, and
those of a conditional without the ones that stand directly in it. -/
theorem woven_write (hbreak : added "\n") {f : Forest}
    (hprepends : ∀ prepend ∈ prepends f, added (prepend ++ "\n")) {kind : Kind}
    (hkind : kind ≠ .directive .selectKey) {attributes : Attributes} {ownText : Bool} {p : Page}
    {texts : List String} (h : Woven added texts p.own.text) :
    Woven added (texts ++ writtenTexts params (ownText && !kind.isConditional) f)
      (write params kind attributes ownText f p).own.text := by
  induction f generalizing kind attributes ownText p texts with
  | nil => simpa [writtenTexts, write] using h
  | text content next ih =>
    cases ownText with
    | false => exact ih hprepends hkind h
    | true =>
      have htext : Woven added (texts ++ if kind.isConditional then [] else [content])
          (p.addText params kind attributes content).own.text := by
        rcases kind with kind | (_ | condition | _)
        · exact h.append (woven_single content)
        · exact h.append (woven_single content)
        · rw [own_addText_conditional]
          simpa [Kind.isConditional] using h
        · exact absurd rfl hkind
      have hnext := @ih hprepends kind hkind attributes true _ _ htext
      cases hconditional : kind.isConditional <;>
        simpa [writtenTexts, write, hconditional] using hnext
  | element name a inner next ihInner ihNext =>
    have hprepend : added (prependOf a ++ "\n") := hprepends _ (by simp [prepends])
    have hbefore : ∀ prepend ∈ prepends inner, added (prepend ++ "\n") :=
      fun _ hmem => hprepends _ (by simp [prepends, hmem])
    have hbehind : ∀ prepend ∈ prepends next, added (prepend ++ "\n") :=
      fun _ hmem => hprepends _ (by simp [prepends, hmem])
    simp only [write, writtenTexts, ← List.append_assoc]
    cases hname : DirectiveKind.ofTag? name with
    | none => exact ihNext hbehind hkind (@ihInner hbefore kind hkind attributes false _ _ h)
    | some directive =>
      refine ihNext hbehind hkind ?_
      rw [own_close]
      cases directive with
      | selectKey => simpa [Rendering.merged, textsAround, Rendering.start] using h
      | dynamic =>
        exact woven_dynamic hbreak hprepend h
          (@ihInner hbefore (.directive .dynamic) (by simp) a true
            (.start (Rendering.opening .dynamic a) .empty) [] .nil)
      | conditional condition =>
        by_cases hholds : condition.holds params a = true
        · have hfragments := woven_addFragments hbreak hprepend h (directTexts inner)
          simp only [textsAround, hholds, if_true, ← List.append_assoc]
          exact woven_conditional hbreak hholds hfragments
            (@ihInner hbefore (.directive (.conditional condition)) (by simp) a true
              (.start (Rendering.opening (.conditional condition) a) .empty) [] .nil)
        · simpa [Rendering.merged, textsAround, Rendering.start, hholds] using h

end

/-! ### The two orders -/

section
variable {params : Params}

/-- Putting the texts that stand directly in a forest first is all that the two ways to list
the texts of a conditional differ in. -/
theorem directTexts_append_perm (f : Forest) :
    (directTexts f ++ writtenTexts params false f).Perm (writtenTexts params true f) := by
  induction f with
  | nil => exact .refl _
  | text content next ih => exact ih.cons content
  | element name a inner next _ ih =>
    simp only [directTexts, writtenTexts]
    refine List.perm_append_comm_assoc _ _ _ |>.trans ?_
    exact ih.append_left _

theorem writtenTexts_of_no_directTexts {f : Forest} (h : directTexts f = []) (ownText : Bool) :
    writtenTexts params ownText f = writtenTexts params false f := by
  induction f with
  | nil => rfl
  | text => cases h
  | element name a inner next _ ih => simp only [writtenTexts, ih h]

theorem directTexts_append_of_textsFirst {f : Forest} (h : TextsFirst f) :
    directTexts f ++ writtenTexts params false f = writtenTexts params true f := by
  induction f with
  | nil => rfl
  | text content next ih => simpa [directTexts, writtenTexts] using ih h
  | element name a inner next _ _ =>
    have hnone : directTexts (.element name a inner next) = [] := h
    rw [hnone, List.nil_append, writtenTexts_of_no_directTexts hnone true]

/-- The texts that are written are those that show in the tree. -/
theorem writtenTexts_perm (ownText : Bool) (f : Forest) :
    (writtenTexts params ownText f).Perm (documentTexts params ownText f) := by
  induction f generalizing ownText with
  | nil => exact .refl _
  | text content next ih => exact (ih ownText).append_left _
  | element name a inner next ihInner ihNext =>
    refine List.Perm.append ?_ (ihNext ownText)
    split
    · exact ihInner false
    · exact .refl _
    · exact ihInner true
    · split
      · exact (directTexts_append_perm inner).trans (ihInner true)
      · exact .refl _

theorem writtenTexts_of_led (ownText : Bool) {f : Forest} (h : Led f) :
    writtenTexts params ownText f = documentTexts params ownText f := by
  induction f generalizing ownText with
  | nil => rfl
  | text content next ih => simp only [writtenTexts, documentTexts, ih ownText h]
  | element name a inner next ihInner ihNext =>
    obtain ⟨hfirst, hinner, hnext⟩ := h
    simp only [writtenTexts, documentTexts, ihNext ownText hnext]
    congr 1
    split
    · exact ihInner false hinner
    · rfl
    · exact ihInner true hinner
    · rename_i condition hname
      split
      · exact (directTexts_append_of_textsFirst (hfirst condition hname)).trans (ihInner true hinner)
      · rfl

end

/-- The text that a statement is rendered to. -/
def Statement.written (statement : Statement) (params : Params) : String :=
  (statement.rendering params).own.text

/-- A template that compiles has its texts written once each, with nothing but line breaks and
prepends added, in the order of the template but for one thing: the texts that stand directly
in a conditional come before those nested in it. -/
theorem compile_keepsOrder {tree : Forest} {id : String} {params : List Param}
    {query : CompiledQuery} (h : compile (.ofForest tree) id params = .ok query) :
    ∃ s, selected? id tree = some s ∧
      query.sql = substitute (.ofList params) (Text.trimmed (s.written (.ofList params))) ∧
      Woven (Added s.body) (writtenTexts (.ofList params) true s.body) (s.written (.ofList params)) ∧
      (writtenTexts (.ofList params) true s.body).Perm (documentTexts (.ofList params) true s.body) ∧
      (Led s.body →
        writtenTexts (.ofList params) true s.body = documentTexts (.ofList params) true s.body) := by
  obtain ⟨s, hs, rfl⟩ := compile_ofForest h
  refine ⟨s, hs, rfl, ?_, writtenTexts_perm true s.body, writtenTexts_of_led true⟩
  rw [Statement.written, s.own_rendering, Statement.page]
  exact @woven_write (.ofList params) (Added s.body) (.inl rfl) s.body
    (fun prepend hmem => .inr ⟨prepend, hmem, rfl⟩) (.statement s.kind) (by simp) s.attributes true
    (.start .empty .empty) [] .nil

/-- The text behind the dynamic part of a conditional is written in front of it. -/
theorem compile_keepsOrder_textBehind :
    let body : Forest :=
      .text "SELECT a FROM t"
        (.element "isNull" [("property", "x")]
          (.text "WHERE a = 1"
            (.element "dynamic" [("prepend", "AND")] (.text "b = 2" .nil)
              (.text "ORDER BY a" .nil)))
          .nil)
    selected? "q" (.element "select" [("id", "q")] body .nil) = some ⟨.select, [("id", "q")], body⟩ ∧
      Woven (Added body) ["SELECT a FROM t", "WHERE a = 1", "ORDER BY a", "b = 2"]
        (Statement.written ⟨.select, [("id", "q")], body⟩ (.ofList [])) := by
  intro body
  have hselected : selected? "q" (.element "select" [("id", "q")] body .nil) =
      some ⟨.select, [("id", "q")], body⟩ := by decide
  have hcompile : compile (.ofForest (.element "select" [("id", "q")] body .nil)) "q" [] =
      .ok ⟨⟨.statement .select, [("id", "q")],
          "SELECT a FROM t\nWHERE a = 1\nORDER BY a\nAND\nb = 2", none, [], false⟩,
        [⟨.directive (.conditional .isNull), [("property", "x")], "AND\nb = 2", some 0, [], false⟩,
          ⟨.directive .dynamic, [("prepend", "AND")], "b = 2", some 1, [], true⟩]⟩ := by
    decide +kernel
  obtain ⟨s, hs, -, hwoven, -⟩ := compile_keepsOrder hcompile
  obtain rfl : ⟨.select, [("id", "q")], body⟩ = s := Option.some.inj (hselected.symm.trans hs)
  exact ⟨hselected, hwoven⟩

/-- So there the texts do not stand in the order of the template. -/
theorem not_woven_documentTexts :
    let body : Forest :=
      .text "SELECT a FROM t"
        (.element "isNull" [("property", "x")]
          (.text "WHERE a = 1"
            (.element "dynamic" [("prepend", "AND")] (.text "b = 2" .nil)
              (.text "ORDER BY a" .nil)))
          .nil)
    compileShown (.ofForest (.element "select" [("id", "q")] body .nil)) "q" [] =
        .ok ⟨"SELECT a FROM t\nWHERE a = 1\nORDER BY a\nAND\nb = 2", []⟩ ∧
      documentTexts (.ofList []) true body =
        ["SELECT a FROM t", "WHERE a = 1", "b = 2", "ORDER BY a"] ∧
      ¬ Woven (fun _ => True) (documentTexts (.ofList []) true body)
        (Statement.written ⟨.select, [("id", "q")], body⟩ (.ofList [])) := by
  intro body
  refine ⟨by decide +kernel, by decide +kernel, fun h => ?_⟩
  have hsublist := h.sublist
  revert hsublist
  decide +kernel

end SqlMaps.Template
