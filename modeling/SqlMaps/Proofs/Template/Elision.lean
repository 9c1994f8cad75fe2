import SqlMaps.Proofs.Template.Position
import SqlMaps.Proofs.Template.Unmet

/-! Where a conditional's prepend is left out.

A dynamic part whose prepend is a keyword announces it to what comes next: the first fragment
written into the part has no prepend. `announced` says, from what has been read alone, where
the reader stands behind such a keyword: in a dynamic part, or in elements in it that only
group, as long as no directive has left anything there. The part's own texts do not count, so
they may stand between the keyword and the fragment, and a conditional inside another one is
never behind the keyword. `compile_prependSpelledOut` says that this is the whole rule: any
conditional, anywhere, can have its prepend written out in its texts, the first of them
without it if and only if a keyword is announced. -/
namespace SqlMaps.Template
open Markup

/-- Whether a directive writes anything into the part it stands in. -/
def leaves (params : Params) (directive : DirectiveKind) (a : Attributes) (inner : Forest) : Bool :=
  match directive with
  | .selectKey => false
  | .dynamic => decide ((gathering params .dynamic a inner).text ≠ "")
  | .conditional condition =>
    condition.holds params a &&
      decide (directTexts inner ≠ [] ∨ (gathering params (.conditional condition) a inner).text ≠ "")

/-- Whether a directive of the forest writes anything into the part the forest stands in. -/
def contributes (params : Params) : Forest → Bool
  | .nil => false
  | .text _ next => contributes params next
  | .element name a inner next =>
    (match DirectiveKind.ofTag? name with
      | none => contributes params inner
      | some directive => leaves params directive a inner) || contributes params next

/-- Whether inside the elements the next fragment comes directly after a keyword. -/
def announced (params : Params) : List OpenPart → Bool
  | [] => false
  | part :: outer =>
    (match DirectiveKind.ofTag? part.name with
      | none => announced params outer
      | some .dynamic => isKeyword (prependOf part.attributes)
      | some _ => false) && !contributes params part.body

/-- The texts that stand directly in the innermost directive. -/
def ownTexts : List OpenPart → List String
  | [] => []
  | part :: outer =>
    match DirectiveKind.ofTag? part.name with
    | none => ownTexts outer
    | some _ => directTexts part.body

/-! ### What is under a keyword -/

theorem Draft.afterKeyword_addFragments (d : Draft) (prepend : String) (texts : List String) :
    (d.addFragments prepend texts).afterKeyword = (d.afterKeyword && texts.isEmpty) := by
  induction texts generalizing d with
  | nil => simp
  | cons content rest ih => simp [ih]

section
variable {params : Params} {kind : Kind} {attributes : Attributes} {ownText : Bool}

/-- A directive that leaves nothing does not touch the draft it stands in. -/
theorem own_close_of_not_leaves {directive : DirectiveKind} {a : Attributes} {inner : Forest}
    (h : leaves params directive a inner = false) (p : Page) :
    (p.close params directive a (write params (.directive directive) a true inner
      (.start (Rendering.opening directive a) p.own))).own = p.own := by
  rw [own_close]
  cases directive with
  | selectKey => simp [Rendering.merged, Rendering.start, textsAround]
  | dynamic =>
    have hempty : (gathering params .dynamic a inner).text = "" := by simpa [leaves] using h
    simp [Rendering.merged, Rendering.start, textsAround, hempty]
  | conditional condition =>
    by_cases hholds : condition.holds params a = true
    · have hnone : directTexts inner = [] ∧
          (gathering params (.conditional condition) a inner).text = "" := by
        simpa [leaves, hholds] using h
      simp [Rendering.merged, Rendering.start, textsAround, hnone]
    · simp [Rendering.merged, Rendering.start, textsAround, hholds]

/-- A keyword is announced behind a directive as before it, unless the directive leaves
something. -/
theorem afterKeyword_close (directive : DirectiveKind) (a : Attributes) (inner : Forest)
    (p : Page) :
    (p.close params directive a (write params (.directive directive) a true inner
        (.start (Rendering.opening directive a) p.own))).own.afterKeyword =
      (p.own.afterKeyword && !leaves params directive a inner) := by
  cases hleaves : leaves params directive a inner with
  | false => simp [own_close_of_not_leaves hleaves]
  | true =>
    rw [own_close]
    cases directive with
    | selectKey => cases hleaves
    | dynamic =>
      have hgathered : (gathering params .dynamic a inner).text ≠ "" := by simpa [leaves] using hleaves
      by_cases hprepend : prependOf a = "" <;>
        simp [Rendering.merged, Rendering.start, hgathered, hprepend]
    | conditional condition =>
      obtain ⟨hholds, hsome⟩ : condition.holds params a = true ∧ (directTexts inner ≠ [] ∨
          (gathering params (.conditional condition) a inner).text ≠ "") := by
        simpa [leaves] using hleaves
      by_cases hempty : (gathering params (.conditional condition) a inner).text = ""
      · have htexts : directTexts inner ≠ [] := hsome.resolve_right (not_not_intro hempty)
        simp [Rendering.merged, Rendering.start, textsAround, hholds, hempty,
          Draft.afterKeyword_addFragments, htexts]
      · simp [Rendering.merged, Rendering.start, hholds, hempty]

/-- Texts leave the announcement in a part's own draft as it is. -/
theorem afterKeyword_addText (content : String) (p : Page) :
    (p.addText params kind attributes content).own.afterKeyword = p.own.afterKeyword := by
  rcases kind with kind | (_ | condition | _)
  · rfl
  · rfl
  · rw [own_addText_conditional]
  · rfl

/-- A keyword is announced in a part's draft as long as no directive in the part contributes. -/
theorem own_afterKeyword_write (f : Forest) (p : Page) :
    (write params kind attributes ownText f p).own.afterKeyword =
      (p.own.afterKeyword && !contributes params f) := by
  induction f generalizing kind attributes ownText p with
  | nil => simp [write, contributes]
  | text content next ih =>
    cases ownText with
    | false => exact ih p
    | true =>
      simp only [write, if_true, ih, afterKeyword_addText]
      rfl
  | element name a inner next ihInner ihNext =>
    simp only [write, contributes]
    cases DirectiveKind.ofTag? name with
    | none => simp [ihNext, ihInner, Bool.and_assoc]
    | some directive => simp [ihNext, afterKeyword_close, Bool.and_assoc]

/-- In a dynamic part to which nothing is contributed there are its own texts. -/
theorem own_write_of_not_contributes {f : Forest} (h : contributes params f = false) (p : Page) :
    (write params (.directive .dynamic) attributes ownText f p).own =
      p.own.add (String.join (if ownText then directTexts f else [])) := by
  induction f generalizing ownText p with
  | nil => cases ownText <;> simp [write, directTexts, Draft.add]
  | text content next ih =>
    cases ownText with
    | false => exact ih h p
    | true =>
      simp only [write, if_true, ih h]
      simp [Page.addText, Page.rendering, Rendering.addText, Rendering.start, Draft.add,
        directTexts, String.append_assoc]
  | element name a inner next ihInner ihNext =>
    have hcases := h
    simp only [contributes, Bool.or_eq_false_iff] at hcases
    obtain ⟨hfirst, hnext⟩ := hcases
    simp only [write]
    cases hname : DirectiveKind.ofTag? name with
    | none =>
      rw [hname] at hfirst
      rw [ihNext hnext, ihInner hfirst]
      simp [Draft.add, directTexts]
    | some directive =>
      rw [hname] at hfirst
      rw [ihNext hnext, own_close_of_not_leaves hfirst]
      rfl

/-- In an element that only groups, what is written does not hang on the part around it. -/
theorem write_grouped_congr (kind' : Kind) (attributes' : Attributes) (f : Forest) (p : Page) :
    write params kind attributes false f p = write params kind' attributes' false f p := by
  induction f generalizing p with
  | nil => rfl
  | text content next ih => exact ih p
  | element name a inner next ihInner ihNext =>
    simp only [write]
    split
    · rw [ihInner, ihNext]
    · exact ihNext _

end

namespace Reader
variable {params : Params} {kind : StatementKind} {root : OpenPart}

/-- The draft at hand is under a keyword where one is announced. -/
theorem afterKeyword_page (inner : List OpenPart) :
    (page params kind root inner).own.afterKeyword = announced params inner := by
  induction inner with
  | nil => exact (afterKeyword_write root.body).1 rfl
  | cons part outer ih =>
    simp only [page, announced]
    cases DirectiveKind.ofTag? part.name with
    | none => rw [own_afterKeyword_write, ih]
    | some directive =>
      rw [own_afterKeyword_write]
      cases directive <;> simp [Page.start, Rendering.opening]

/-- The draft under a keyword holds the texts of its own part, and nothing else. -/
theorem text_page {inner : List OpenPart} (h : announced params inner = true) :
    (page params kind root inner).own.text = String.join (ownTexts inner) := by
  induction inner with
  | nil => cases h
  | cons part outer ih =>
    simp only [announced, Bool.and_eq_true, Bool.not_eq_true'] at h
    obtain ⟨hannounced, hsilent⟩ := h
    simp only [page, ownTexts]
    cases hname : DirectiveKind.ofTag? part.name with
    | none =>
      rw [hname] at hannounced
      rw [write_grouped_congr (.directive .dynamic) [], own_write_of_not_contributes hsilent]
      simp [Draft.add, ih hannounced]
    | some directive =>
      rw [hname] at hannounced
      cases directive with
      | dynamic =>
        rw [own_write_of_not_contributes hsilent]
        simp [Page.start, Rendering.opening, Draft.empty, Draft.add]
      | conditional => cases hannounced
      | selectKey => cases hannounced

end Reader

/-! ### Prepends written out -/

/-- The body of a conditional with the prepend written in front of each text that stands
directly in it, the first one excepted if its prepend is left out. -/
def spelledOut (prepend : String) : Bool → Forest → Forest
  | _, .nil => .nil
  | leftOut, .text content next =>
    .text (if prepend = "" ∨ leftOut then content else prepend ++ "\n" ++ content)
      (spelledOut prepend false next)
  | leftOut, .element name a inner next => .element name a inner (spelledOut prepend leftOut next)

/-- Attributes without a prepend. -/
def withoutPrepend (a : Attributes) : Attributes :=
  a ++ [("prepend", "")]

theorem prependOf_withoutPrepend (a : Attributes) : prependOf (withoutPrepend a) = "" := by
  simp [prependOf, withoutPrepend, Attributes.value?]

theorem holds_withoutPrepend (params : Params) (condition : Condition) (a : Attributes) :
    condition.holds params (withoutPrepend a) = condition.holds params a := by
  have hvalue : ∀ name : String, name ≠ "prepend" →
      (withoutPrepend a).value? name = a.value? name := by
    intro name hname
    have hother : (name == "prepend") = false := by simpa using hname
    simp [withoutPrepend, Attributes.value?, List.lookup_cons, hother]
  cases condition <;>
    simp [Condition.holds, Condition.holds.property, Condition.holds.compared, hvalue]

/-- The draft that fragments are added to decides which prepend is left out. -/
theorem addFragments_spelledOut (d : Draft) (prepend : String) (f : Forest) :
    d.addFragments "" (directTexts (spelledOut prepend d.afterKeyword f)) =
      d.addFragments prepend (directTexts f) := by
  induction f generalizing d with
  | nil => rfl
  | text content next ih =>
    have hfirst : d.addFragment ""
        (if prepend = "" ∨ d.afterKeyword = true then content else prepend ++ "\n" ++ content) =
          d.addFragment prepend content := by
      simp only [Draft.addFragment, true_or, if_true]
      split <;> rfl
    simp only [spelledOut, directTexts, Draft.addFragments_cons, hfirst]
    rw [← ih, Draft.afterKeyword_addFragment]
  | element name a inner next _ ih => exact ih d

section
variable {params : Params} {condition : Condition} {a a' : Attributes}

/-- Of a conditional only the directives in it write to its own draft. -/
theorem own_write_conditional (kind : Kind) (attributes : Attributes) (f : Forest) {p q : Page}
    (h : p.own = q.own) :
    (write params (.directive (.conditional condition)) a true f p).own =
      (write params kind attributes false f q).own := by
  induction f generalizing p q with
  | nil => exact h
  | text content next ih =>
    refine ih ?_
    rw [if_pos rfl, own_addText_conditional]
    exact h
  | element name b inner next _ ih =>
    simp only [write]
    cases DirectiveKind.ofTag? name with
    | none =>
      refine ih ?_
      rw [write_grouped_congr kind attributes]
      exact own_write_congr inner h
    | some directive =>
      refine ih ?_
      simp only [Page.close, h]

/-- Where texts do not count, prepends written out in them do not either. -/
theorem write_grouped_spelledOut {kind : Kind} {attributes : Attributes} (prepend : String)
    (leftOut : Bool) (f : Forest) (p : Page) :
    write params kind attributes false (spelledOut prepend leftOut f) p =
      write params kind attributes false f p := by
  induction f generalizing leftOut p with
  | nil => rfl
  | text content next ih => exact ih false p
  | element name b inner next _ ih =>
    simp only [spelledOut, write]
    split <;> exact ih leftOut _

/-- The own draft of a conditional has nothing of the texts that stand directly in it. -/
theorem own_write_spelledOut (prepend : String) (leftOut : Bool) (f : Forest) {p q : Page}
    (h : p.own = q.own) :
    (write params (.directive (.conditional condition)) a' true (spelledOut prepend leftOut f) p).own =
      (write params (.directive (.conditional condition)) a true f q).own := by
  rw [own_write_conditional (.directive (.conditional condition)) a _ rfl, write_grouped_spelledOut]
  exact (own_write_conditional _ _ f h.symm).symm

/-- A conditional writes the same with its prepend written out, if its first text has one just
where no keyword is announced. -/
theorem write_spelledOut {kind : Kind} {attributes : Attributes} {ownText : Bool}
    (content : Forest) (p : Page) :
    write params kind attributes ownText (conditional condition (withoutPrepend a)
        (spelledOut (prependOf a) p.own.afterKeyword content)) p =
      write params kind attributes ownText (conditional condition a content) p := by
  have haround : (write params (.directive (.conditional condition)) (withoutPrepend a) true
        (spelledOut (prependOf a) p.own.afterKeyword content)
        (.start (Rendering.opening (.conditional condition) (withoutPrepend a)) p.own)).around =
      (write params (.directive (.conditional condition)) a true content
        (.start (Rendering.opening (.conditional condition) a) p.own)).around := by
    simp only [around_write, Page.around_start, prependOf_withoutPrepend, textsAround,
      holds_withoutPrepend, if_true]
    split
    · exact addFragments_spelledOut p.own (prependOf a) content
    · rfl
  have hown : (write params (.directive (.conditional condition)) (withoutPrepend a) true
        (spelledOut (prependOf a) p.own.afterKeyword content)
        (.start (Rendering.opening (.conditional condition) (withoutPrepend a)) p.own)).own =
      (write params (.directive (.conditional condition)) a true content
        (.start (Rendering.opening (.conditional condition) a) p.own)).own :=
    own_write_spelledOut _ _ content (by simp [Rendering.opening])
  simp [conditional, write, DirectiveKind.ofTag?_tag, Page.close, Page.rendering, Rendering.merged,
    Rendering.start, haround, hown, holds_withoutPrepend]

/-- Writing prepends out moves no element. -/
theorem wellPlaced_spelledOut {kind : StatementKind} {root : OpenPart} {inner : List OpenPart}
    (prepend : String) (leftOut : Bool) {f : Forest} (h : Reader.WellPlaced kind root inner f) :
    Reader.WellPlaced kind root inner (spelledOut prepend leftOut f) := by
  induction f generalizing leftOut with
  | nil => trivial
  | text content next ih => exact ih false h
  | element name b body next _ ih => exact ⟨h.1, h.2.1, ih leftOut h.2.2⟩

end

/-- Wherever a conditional stands in a template that compiles, its prepend can be written out
in front of its texts. The first of them does without it exactly where a keyword is announced,
which takes a dynamic part whose prepend is a keyword and in which no directive has left
anything; the part's own texts may be there already. -/
theorem compile_prependSpelledOut {id : String} {before rest : List Answer} {kind : StatementKind}
    {root : OpenPart} {inner : List OpenPart}
    (hbefore : Reader.seeking.after? id before = some (.inside kind root inner))
    {condition : Condition} {a : Attributes} {content : Forest} {params : List Param} {shown : Shown}
    (h : compileShown (.answering
      (before ++ (conditional condition a content).events.map .ok ++ rest)) id params = .ok shown) :
    let d := (Reader.page (.ofList params) kind root inner).own
    d.afterKeyword = announced (.ofList params) inner ∧
      (d.afterKeyword = true → d.text = String.join (ownTexts inner)) ∧
      compileShown (.answering
          (before ++ (conditional condition (withoutPrepend a)
            (spelledOut (prependOf a) d.afterKeyword content)).events.map .ok ++ rest)) id params =
        .ok shown := by
  intro d
  have hflag : d.afterKeyword = announced (.ofList params) inner := Reader.afterKeyword_page inner
  refine ⟨hflag, fun hd => Reader.text_page (hflag.symm.trans hd), ?_⟩
  have hread : ∀ f : Forest, Reader.seeking.result id (before ++ f.events.map .ok ++ rest) =
      (Reader.inside kind root inner).result id (f.events.map .ok ++ rest) := by
    intro f
    rw [List.append_assoc, Reader.result_append hbefore]
  rw [compileShown_answering, hread] at h ⊢
  rcases @Reader.wellPlaced_or_refused kind root inner id (conditional condition a content) with
    hplaced | ⟨e, he⟩
  · have hspelled : Reader.WellPlaced kind root inner (conditional condition (withoutPrepend a)
        (spelledOut (prependOf a) d.afterKeyword content)) :=
      ⟨hplaced.1, wellPlaced_spelledOut _ _ (Reader.wellPlaced_congr rfl (by simp [OpenPart.start]) hplaced.2.1),
        trivial⟩
    rw [Reader.result_append (Reader.after?_events id hplaced)] at h
    rw [Reader.result_append (Reader.after?_events id hspelled), ← h]
    exact (Reader.result_addInside (write_spelledOut content _) id rest).map_shown
  · rw [he] at h
    cases h

/-- Behind `WHERE` and a text of the dynamic part itself, the first conditional still has no
prepend. -/
theorem compile_prependSpelledOut_behindText :
    let before : List Answer := [.ok (.start "select" [("id", "q")]), .ok (.text "SELECT b FROM t"),
      .ok (.start "dynamic" [("prepend", "WHERE")]), .ok (.text "x = 1 ")]
    let inner : List OpenPart := [⟨"dynamic", [("prepend", "WHERE")], .text "x = 1 " .nil⟩]
    announced (.ofList [⟨"a", .integer 5⟩]) inner = true ∧
      compileShown
          (.answering (before ++
            (conditional .isNotNull [("property", "a"), ("prepend", "AND")]
              (.text "a = #(a)#" (.text "OR 1" .nil))).events.map .ok ++
            [.ok (.finish "dynamic"), .ok (.finish "select")]))
          "q" [⟨"a", .integer 5⟩] =
        .ok ⟨"SELECT b FROM t\nWHERE\nx = 1 \na = 5\nAND\nOR 1", []⟩ ∧
      compileShown
          (.answering (before ++
            (conditional .isNotNull [("property", "a"), ("prepend", "AND"), ("prepend", "")]
              (.text "a = #(a)#" (.text "AND\nOR 1" .nil))).events.map .ok ++
            [.ok (.finish "dynamic"), .ok (.finish "select")]))
          "q" [⟨"a", .integer 5⟩] =
        .ok ⟨"SELECT b FROM t\nWHERE\nx = 1 \na = 5\nAND\nOR 1", []⟩ := by
  intro before inner
  have hbefore : Reader.seeking.after? "q" before =
      some (.inside .select ⟨"select", [("id", "q")], .text "SELECT b FROM t" .nil⟩ inner) := by
    decide +kernel
  have h : compileShown
      (.answering (before ++
        (conditional .isNotNull [("property", "a"), ("prepend", "AND")]
          (.text "a = #(a)#" (.text "OR 1" .nil))).events.map .ok ++
        [.ok (.finish "dynamic"), .ok (.finish "select")]))
      "q" [⟨"a", .integer 5⟩] =
        .ok ⟨"SELECT b FROM t\nWHERE\nx = 1 \na = 5\nAND\nOR 1", []⟩ := by
    decide +kernel
  have hannounced : announced (.ofList [⟨"a", .integer 5⟩]) inner = true := by decide +kernel
  obtain ⟨hflag, -, hspelled⟩ := compile_prependSpelledOut hbefore h
  rw [hflag, hannounced] at hspelled
  exact ⟨hannounced, h, hspelled⟩

/-- A text of the part's own does not end the announcement, so the draft under `WHERE` is not
empty and a fragment behind the text has no prepend; and a conditional inside another one has
its prepend though nothing stands between it and `WHERE`. -/
theorem keyword_behindText_and_inConditional :
    let d := (Reader.page (.ofList []) .select ⟨"select", [("id", "q")], .nil⟩
      [⟨"dynamic", [("prepend", "WHERE")], .text "x = 1 " .nil⟩]).own
    d.afterKeyword = true ∧ d.text = "x = 1 " ∧
    compileShown
        (.ofForest
          (.element "select" [("id", "q")]
            (.text "SELECT b FROM t"
              (.element "dynamic" [("prepend", "WHERE")]
                (.text "x = 1 "
                  (conditional .isNotNull [("property", "a"), ("prepend", "AND")]
                    (.text "a = #(a)#" .nil)))
                .nil))
            .nil))
        "q" [⟨"a", .integer 5⟩] =
      .ok ⟨"SELECT b FROM t\nWHERE\nx = 1 \na = 5", []⟩ ∧
    compileShown
        (.ofForest
          (.element "select" [("id", "q")]
            (.text "SELECT c FROM t"
              (.element "dynamic" [("prepend", "WHERE")]
                (conditional .isNotNull [("property", "a")]
                  (conditional .isNotNull [("property", "b"), ("prepend", "AND")]
                    (.text "b = #(b)#" .nil)))
                .nil))
            .nil))
        "q" [⟨"a", .integer 1⟩, ⟨"b", .integer 2⟩] =
      .ok ⟨"SELECT c FROM t\nWHERE\nAND\nb = 2", []⟩ := by
  decide +kernel

end SqlMaps.Template
