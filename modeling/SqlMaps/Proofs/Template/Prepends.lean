import SqlMaps.Proofs.Template.Elision
import SqlMaps.Proofs.Template.Grouping
import SqlMaps.Proofs.Template.Order

/-! How often a prepend is written.

The prepend of a conditional goes with its texts: every text that stands directly in it has one in
front, and what the directives in it have gathered has none. What is written elsewhere does not hang
on the prepend at all. A draft decides what is added to it only by its end (`Appending`), and that
end is the same whichever prepend there is, so the texts that differ in one prepend stay the same
around the place where the conditional has written (`Framed`). `compile_prependsOwnTexts` says so of
whole statements. -/
namespace SqlMaps.Template
open Markup

/-- What a conditional away from keywords contributes, each part on a line of its own: its own texts
behind the prepend, and what it has gathered. -/
def fragments (prepend : String) (texts : List String) (gathered : String) : List String :=
  texts.map (fun content => prepend ++ "\n" ++ content) ++ if gathered = "" then [] else [gathered]

/-- The fragments as they are written. -/
def contributed (prepend : String) (texts : List String) (gathered : String) : String :=
  (fragments prepend texts gathered).foldl onNewLine ""

/-- Every element around the open place only groups, or is a conditional that holds. -/
def Reached (params : Params) : Context → Prop
  | .here _ => True
  | .text _ rest => Reached params rest
  | .inside name a body _ =>
    (match DirectiveKind.ofTag? name with
      | none => True
      | some (.conditional condition) => condition.holds params a = true
      | some _ => False) ∧ Reached params body
  | .behind _ _ _ rest => Reached params rest

/-! ### Lines -/

theorem endsLine_append {t : String} (h : t ≠ "") (s : String) : endsLine (s ++ t) = endsLine t := by
  have hlist : t.toList ≠ [] := by simpa using h
  obtain ⟨c, hc⟩ := Option.ne_none_iff_exists'.1 (mt List.getLast?_eq_none_iff.1 hlist)
  simp [endsLine, List.getLast?_append, hc]

/-- On a line of its own, a text ends the line if it does so alone. -/
theorem endsLine_onNewLine (s t : String) : endsLine (onNewLine s t) = endsLine t := by
  by_cases ht : t = ""
  · subst ht
    rw [onNewLine]
    split
    · simpa [endsLine] using ‹endsLine s = true›
    · rw [String.append_empty, endsLine_append (by simp)]
      rfl
  · rw [onNewLine]
    split <;> exact endsLine_append ht _

theorem onNewLine_append {t : String} (h : t ≠ "") (s fragment : String) :
    onNewLine (s ++ t) fragment = s ++ onNewLine t fragment := by
  rw [onNewLine, onNewLine, endsLine_append h]
  split <;> simp only [String.append_assoc]

theorem foldl_onNewLine_append {t : String} (h : t ≠ "") (s : String) (texts : List String) :
    texts.foldl onNewLine (s ++ t) = s ++ texts.foldl onNewLine t := by
  induction texts generalizing t with
  | nil => rfl
  | cons fragment rest ih =>
    have hne : onNewLine t fragment ≠ "" := foldl_onNewLine_ne h [fragment]
    rw [List.foldl_cons, List.foldl_cons, onNewLine_append h, ih hne]

/-- What is written on lines of its own behind a text is what is written alone, behind a break. -/
theorem foldl_onNewLine_eq {fragment : String} (h : fragment ≠ "") (s : String)
    (rest : List String) :
    (fragment :: rest).foldl onNewLine s =
      s ++ (if endsLine s then "" else "\n") ++ (fragment :: rest).foldl onNewLine "" := by
  have hempty : onNewLine "" fragment = fragment := by simp [onNewLine, endsLine]
  rw [List.foldl_cons, List.foldl_cons, hempty, ← foldl_onNewLine_append h, onNewLine]
  split
  · rw [String.append_empty]
  · rfl

/-- Whichever prepend there is, the last fragment ends in the same way. -/
theorem exists_endsLine_fragments {texts : List String} {gathered : String}
    (h : texts ≠ [] ∨ gathered ≠ "") :
    ∃ ends, ∀ prepend s,
      endsLine ((fragments prepend texts gathered).foldl onNewLine s) = ends := by
  by_cases hgathered : gathered = ""
  · obtain ⟨init, last, rfl⟩ := (List.eq_nil_or_concat texts).resolve_left
      (h.resolve_right (not_not_intro hgathered))
    refine ⟨endsLine ("\n" ++ last), fun prepend s => ?_⟩
    rw [fragments, if_pos hgathered, List.append_nil, List.concat_eq_append, List.map_append,
      List.foldl_append]
    refine (endsLine_onNewLine _ (prepend ++ "\n" ++ last)).trans ?_
    rw [String.append_assoc, endsLine_append (by simp)]
  · refine ⟨endsLine gathered, fun prepend s => ?_⟩
    rw [fragments, if_neg hgathered, List.foldl_append]
    exact endsLine_onNewLine _ _

/-! ### What is added to a draft -/

namespace Draft

/-- All that the draft decides of what is added to it: whether it is at the start of a line, and
whether it is under a keyword. -/
def mode (d : Draft) : Bool × Bool :=
  (endsLine d.text, d.afterKeyword)

/-- To all drafts with the same mode the function adds the same text. -/
def Appending (g : Draft → Draft) : Prop :=
  ∀ m, ∃ s m', ∀ d : Draft, d.mode = m → (g d).text = d.text ++ s ∧ (g d).mode = m'

theorem appending_id : Appending fun d => d :=
  fun m => ⟨"", m, fun _ hd => ⟨String.append_empty.symm, hd⟩⟩

theorem Appending.comp {g g' : Draft → Draft} (hg' : Appending g') (hg : Appending g) :
    Appending fun d => g' (g d) := by
  intro m
  obtain ⟨s, m', h⟩ := hg m
  obtain ⟨s', m'', h'⟩ := hg' m'
  refine ⟨s ++ s', m'', fun d hd => ?_⟩
  obtain ⟨htext, hmode⟩ := h d hd
  obtain ⟨htext', hmode'⟩ := h' (g d) hmode
  exact ⟨by rw [htext', htext, String.append_assoc], hmode'⟩

theorem appending_add (s : String) : Appending (·.add s) := by
  by_cases hs : s = ""
  · subst hs
    exact fun m => ⟨"", m, fun d hd => ⟨rfl, by simpa [mode, add] using hd⟩⟩
  · rintro ⟨_, flag⟩
    refine ⟨s, (endsLine s, flag), fun d hd => ⟨rfl, Prod.ext (endsLine_append hs _) ?_⟩⟩
    exact (congrArg Prod.snd hd : d.afterKeyword = flag)

theorem appending_merge (s : String) : Appending (·.merge s) := by
  rintro ⟨lineStart, flag⟩
  refine ⟨(if lineStart then "" else "\n") ++ s, (endsLine s, false), fun d hd => ?_⟩
  obtain rfl : endsLine d.text = lineStart := congrArg Prod.fst hd
  refine ⟨?_, Prod.ext ((congrArg endsLine text_merge).trans (endsLine_onNewLine _ _)) rfl⟩
  rw [text_merge, onNewLine]
  split
  · rw [String.empty_append]
  · rw [String.append_assoc]

theorem appending_addFragment (prepend fragment : String) :
    Appending (·.addFragment prepend fragment) := by
  rintro ⟨lineStart, flag⟩
  obtain ⟨s, m, h⟩ := appending_merge
    (if prepend = "" ∨ flag = true then fragment else prepend ++ "\n" ++ fragment) (lineStart, flag)
  refine ⟨s, m, fun d hd => ?_⟩
  obtain rfl : d.afterKeyword = flag := congrArg Prod.snd hd
  have hmerge : d.addFragment prepend fragment = d.merge
      (if prepend = "" ∨ d.afterKeyword = true then fragment else prepend ++ "\n" ++ fragment) :=
    (apply_ite d.merge _ _ _).symm
  simpa only [hmerge] using h d hd

theorem appending_addFragments (prepend : String) (texts : List String) :
    Appending (·.addFragments prepend texts) := by
  induction texts with
  | nil => exact appending_id
  | cons content rest ih => exact ih.comp (appending_addFragment prepend content)

end Draft

/-- What becomes of a part's draft with a forest written in the part. -/
def Draft.writing (params : Params) (kind : Kind) (attributes : Attributes) (ownText : Bool)
    (f : Forest) (d : Draft) : Draft :=
  (write params kind attributes ownText f (.start d .empty)).own

section
variable {params : Params} {kind : Kind} {attributes : Attributes} {ownText : Bool}

theorem own_write (f : Forest) (p : Page) :
    (write params kind attributes ownText f p).own =
      p.own.writing params kind attributes ownText f :=
  own_write_congr f rfl

theorem writing_append (f g : Forest) (d : Draft) :
    d.writing params kind attributes ownText (f ++ g) =
      (d.writing params kind attributes ownText f).writing params kind attributes ownText g := by
  rw [Draft.writing, write_append]
  exact own_write ..

theorem writing_text (content : String) (next : Forest) (d : Draft) :
    d.writing params kind attributes true (.text content next) =
      ((Page.start d .empty).addText params kind attributes content).own.writing params kind
        attributes true next :=
  own_write next _

theorem writing_grouping {name : String} (hname : DirectiveKind.ofTag? name = none) (a : Attributes)
    (inner next : Forest) (d : Draft) :
    d.writing params kind attributes ownText (.element name a inner next) =
      (d.writing params kind attributes false inner).writing params kind attributes ownText next := by
  rw [Draft.writing, write, hname]
  exact own_write ..

theorem writing_directive {name : String} {directive : DirectiveKind}
    (hname : DirectiveKind.ofTag? name = some directive) (a : Attributes) (inner next : Forest)
    (d : Draft) :
    d.writing params kind attributes ownText (.element name a inner next) =
      (Rendering.merged params directive a (.start (gathering params directive a inner)
        (d.addFragments (prependOf a) (textsAround params (.directive directive) a inner)))).writing
          params kind attributes ownText next := by
  rw [Draft.writing, write, hname]
  exact (own_write ..).trans (by rw [own_close]; rfl)

theorem appending_addText (content : String) :
    Draft.Appending fun d => ((Page.start d .empty).addText params kind attributes content).own := by
  rcases kind with kind | (_ | condition | _)
  · exact Draft.appending_add content
  · exact Draft.appending_add content
  · simp only [own_addText_conditional]
    exact Draft.appending_id
  · exact Draft.appending_add _

theorem appending_merged (directive : DirectiveKind) (a : Attributes) (gathered : Draft) :
    Draft.Appending fun d => Rendering.merged params directive a (.start gathered d) := by
  cases directive with
  | selectKey => exact Draft.appending_id
  | dynamic =>
    by_cases hempty : gathered.text = ""
    · simpa [Rendering.merged, Rendering.start, hempty] using Draft.appending_id
    · by_cases hnone : prependOf a = "" <;>
        simpa [Rendering.merged, Rendering.start, hempty, hnone] using Draft.appending_merge _
  | conditional condition =>
    by_cases hempty : gathered.text = ""
    · simpa [Rendering.merged, Rendering.start, hempty] using Draft.appending_id
    · by_cases hholds : condition.holds params a = true
      · simpa [Rendering.merged, Rendering.start, hempty, hholds] using Draft.appending_merge _
      · simpa [Rendering.merged, Rendering.start, hholds] using Draft.appending_id

/-- What is written behind a draft is decided by its mode. -/
theorem appending_writing (f : Forest) :
    Draft.Appending (Draft.writing params kind attributes ownText f) := by
  induction f generalizing kind attributes ownText with
  | nil => exact Draft.appending_id
  | text content next ih =>
    cases ownText with
    | false => exact ih
    | true =>
      have h := Draft.Appending.comp (@ih kind attributes true)
        (@appending_addText params kind attributes content)
      simpa only [← writing_text] using h
  | element name a inner next ihInner ihNext =>
    cases hname : DirectiveKind.ofTag? name with
    | none =>
      have h := Draft.Appending.comp (@ihNext kind attributes ownText)
        (@ihInner kind attributes false)
      simpa only [← writing_grouping hname a] using h
    | some directive =>
      have h := Draft.Appending.comp (@ihNext kind attributes ownText)
        ((@appending_merged params directive a (gathering params directive a inner)).comp
          (Draft.appending_addFragments (prependOf a)
            (textsAround params (.directive directive) a inner)))
      simpa only [← writing_directive hname a] using h

end

/-! ### Drafts that differ in one place -/

/-- The drafts have the same text in front of what stands in one place, and the same behind it. -/
def Framed {ι : Type} (c : ι → String) (D : ι → Draft) : Prop :=
  ∃ front back m, ∀ i, (D i).text = front ++ c i ++ back ∧ (D i).mode = m

section
variable {ι : Type} {c : ι → String} {D : ι → Draft}

theorem framed_const (hc : ∀ i, c i = "") (d : Draft) : Framed c fun _ => d :=
  ⟨d.text, "", d.mode, fun i => ⟨by simp [hc i], rfl⟩⟩

theorem Framed.map (hD : Framed c D) {g : Draft → Draft} (hg : Draft.Appending g) :
    Framed c fun i => g (D i) := by
  obtain ⟨front, back, m, h⟩ := hD
  obtain ⟨s, m', hs⟩ := hg m
  refine ⟨front, back ++ s, m', fun i => ?_⟩
  obtain ⟨htext, hmode⟩ := h i
  obtain ⟨htext', hmode'⟩ := hs (D i) hmode
  exact ⟨by rw [htext', htext, String.append_assoc], hmode'⟩

/-- What is gathered goes on as a whole. -/
theorem Framed.merged (hD : Framed c D) (hc : (∀ i, c i = "") ∨ ∀ i, c i ≠ "") {params : Params}
    {condition : Condition} {a : Attributes} (hholds : condition.holds params a = true)
    (d : Draft) :
    Framed c fun i => Rendering.merged params (.conditional condition) a (.start (D i) d) := by
  obtain ⟨front, back, m, h⟩ := hD
  rcases hc with hc | hc
  · have htext : ∀ i, (D i).text = front ++ back := by
      intro i
      rw [(h i).1, hc i, String.append_empty]
    simp only [Rendering.merged, Rendering.start, htext]
    exact framed_const hc _
  · have hne : ∀ i, (D i).text ≠ "" := fun i => by simp [(h i).1, hc i]
    have hmerged : ∀ i, Rendering.merged params (.conditional condition) a (.start (D i) d) =
        d.merge (D i).text := by
      intro i
      simp [Rendering.merged, Rendering.start, hne i, hholds]
    simp only [hmerged]
    refine ⟨d.text ++ (if endsLine d.text then "" else "\n") ++ front, back, (m.1, false),
      fun i => ?_⟩
    obtain ⟨htext, hmode⟩ := h i
    refine ⟨Draft.text_merge.trans ?_, Prod.ext ?_ rfl⟩
    · rw [htext, onNewLine]
      split <;> simp [String.append_assoc]
    · exact (congrArg endsLine Draft.text_merge).trans
        ((endsLine_onNewLine _ _).trans (congrArg Prod.fst hmode))

end

/-! ### What a conditional writes -/

section
variable {params : Params} {condition : Condition} {a : Attributes}

/-- Its attributes have no say in what a conditional gathers. -/
theorem gathering_conditional (a a' : Attributes) (content : Forest) :
    gathering params (.conditional condition) a content =
      gathering params (.conditional condition) a' content :=
  (own_write_conditional (.directive (.conditional condition)) [] content rfl).trans
    (own_write_conditional _ _ content rfl).symm

theorem text_addFragments {d : Draft} (hd : d.afterKeyword = false) {prepend : String}
    (hprepend : prepend ≠ "") (texts : List String) :
    (d.addFragments prepend texts).text =
      (texts.map fun content => prepend ++ "\n" ++ content).foldl onNewLine d.text := by
  induction texts generalizing d with
  | nil => rfl
  | cons content rest ih =>
    rw [Draft.addFragments_cons, ih (Draft.afterKeyword_addFragment prepend),
      Draft.text_addFragment, hd]
    simp [hprepend]

/-- Away from keywords a conditional that holds leaves its fragments. -/
theorem text_merged_conditional {d : Draft} (hd : d.afterKeyword = false)
    (hholds : condition.holds params a = true) (hprepend : prependOf a ≠ "") (texts : List String)
    (gathered : Draft) :
    (Rendering.merged params (.conditional condition) a
        (.start gathered (d.addFragments (prependOf a) texts))).text =
      (fragments (prependOf a) texts gathered.text).foldl onNewLine d.text := by
  rw [fragments, List.foldl_append, ← text_addFragments hd hprepend]
  by_cases hempty : gathered.text = ""
  · simp [Rendering.merged, Rendering.start, hempty]
  · simp [Rendering.merged, Rendering.start, hempty, hholds, Draft.text_merge]

end

/-! ### What is written around it -/

section
variable {texts : List String} {gathered : String} (h : texts ≠ [] ∨ gathered ≠ "")
include h

theorem exists_fragments (prepend : String) :
    ∃ first rest, first ≠ "" ∧ fragments prepend texts gathered = first :: rest := by
  cases texts with
  | nil =>
    have hgathered : gathered ≠ "" := h.resolve_left (not_not_intro rfl)
    exact ⟨gathered, [], hgathered, by simp [fragments, hgathered]⟩
  | cons content rest => exact ⟨prepend ++ "\n" ++ content, _, by simp, rfl⟩

/-- Behind another text, the fragments stand on a line of their own. -/
theorem foldl_fragments_eq (prepend s : String) :
    (fragments prepend texts gathered).foldl onNewLine s =
      s ++ (if endsLine s then "" else "\n") ++ contributed prepend texts gathered := by
  obtain ⟨first, rest, hfirst, heq⟩ := exists_fragments h prepend
  rw [contributed, heq]
  exact foldl_onNewLine_eq hfirst s rest

theorem contributed_ne (prepend : String) : contributed prepend texts gathered ≠ "" := by
  obtain ⟨first, rest, hfirst, heq⟩ := exists_fragments h prepend
  have hempty : onNewLine "" first = first := by simp [onNewLine, endsLine]
  rw [contributed, heq, List.foldl_cons, hempty]
  exact foldl_onNewLine_ne hfirst rest

end

theorem contributed_empty {texts : List String} {gathered : String}
    (h : ¬ (texts ≠ [] ∨ gathered ≠ "")) (prepend : String) :
    contributed prepend texts gathered = "" := by
  simp only [ne_eq, not_or, not_not] at h
  obtain ⟨rfl, rfl⟩ := h
  rfl

/-- A tree without texts of its own leaves those around the open place as they are. -/
theorem directTexts_fill {f : Forest} (hf : directTexts f = []) (place : Context) :
    directTexts (place.fill f) = directTexts (place.fill .nil) := by
  induction place with
  | here next => rw [Context.fill, Context.fill, directTexts_append, hf]; rfl
  | text content rest ih => exact congrArg (content :: ·) ih
  | inside => rfl
  | behind _ _ _ _ ih => exact ih

section
variable {params : Params} {condition : Condition} {ι : Type} {attrs : ι → Attributes}
  (hholds : ∀ i, condition.holds params (attrs i) = true) (hprepend : ∀ i, prependOf (attrs i) ≠ "")
  (a : Attributes) (content : Forest)
include hholds hprepend

/-- Conditionals that differ in their attributes only write the same but for the prepend. -/
theorem framed_conditional {kind : Kind} {attributes : Attributes} {ownText : Bool} {d : Draft}
    (hd : d.afterKeyword = false) :
    Framed
      (fun i => contributed (prependOf (attrs i)) (directTexts content)
        (gathering params (.conditional condition) a content).text)
      (fun i => d.writing params kind attributes ownText
        (conditional condition (attrs i) content)) := by
  have hwriting : ∀ i, d.writing params kind attributes ownText
      (conditional condition (attrs i) content) =
        Rendering.merged params (.conditional condition) (attrs i)
          (.start (gathering params (.conditional condition) a content)
            (d.addFragments (prependOf (attrs i)) (directTexts content))) := by
    intro i
    rw [conditional, writing_directive (DirectiveKind.ofTag?_tag _),
      gathering_conditional (attrs i) a, textsAround, if_pos (hholds i)]
    rfl
  simp only [hwriting]
  generalize gathering params (.conditional condition) a content = gathered
  -- With nothing to write there is no line break either.
  by_cases hsome : directTexts content ≠ [] ∨ gathered.text ≠ ""
  · obtain ⟨ends, hends⟩ := exists_endsLine_fragments hsome
    refine ⟨d.text ++ if endsLine d.text then "" else "\n", "", (ends, false), fun i => ?_⟩
    have htext := text_merged_conditional hd (hholds i) (hprepend i) (directTexts content) gathered
    refine ⟨?_, Prod.ext ((congrArg endsLine htext).trans (hends _ _)) ?_⟩
    · rw [htext, foldl_fragments_eq hsome, String.append_empty]
    · refine Rendering.afterKeyword_merged ?_
      simp [Rendering.start, Draft.afterKeyword_addFragments, hd]
  · have hempty := contributed_empty hsome
    simp only [ne_eq, not_or, not_not] at hsome
    have hnone : ∀ i, Rendering.merged params (.conditional condition) (attrs i)
        (.start gathered (d.addFragments (prependOf (attrs i)) (directTexts content))) = d := by
      intro i
      simp [Rendering.merged, Rendering.start, hsome]
    simp only [hnone]
    exact framed_const (fun i => hempty _) d

/-- Around the open place the same is written for all of them. -/
theorem framed_fill {place : Context} (hplace : Reached params place) {kind : Kind}
    {attributes : Attributes} {ownText : Bool} {d : Draft} (hd : d.afterKeyword = false) :
    Framed
      (fun i => contributed (prependOf (attrs i)) (directTexts content)
        (gathering params (.conditional condition) a content).text)
      (fun i => d.writing params kind attributes ownText
        (place.fill (conditional condition (attrs i) content))) := by
  -- On the way to the open place no draft is under a keyword: there is no dynamic part around it.
  induction place generalizing kind attributes ownText d with
  | here next =>
    simp only [Context.fill, writing_append]
    exact (framed_conditional hholds hprepend a content hd).map (appending_writing next)
  | text s rest ih =>
    cases ownText with
    | false => exact ih hplace hd
    | true =>
      simp only [Context.fill, writing_text]
      exact ih hplace ((afterKeyword_addText s _).trans hd)
  | inside name b body next ih =>
    obtain ⟨hname, hbody⟩ := hplace
    cases hkind : DirectiveKind.ofTag? name with
    | none =>
      simp only [Context.fill, writing_grouping hkind]
      exact (ih hbody hd).map (appending_writing next)
    | some directive =>
      rw [hkind] at hname
      cases directive with
      | dynamic => cases hname
      | selectKey => cases hname
      | conditional outer =>
        have htexts : ∀ i, textsAround params (.directive (.conditional outer)) b
            (body.fill (conditional condition (attrs i) content)) =
              directTexts (body.fill .nil) := by
          intro i
          rw [textsAround, if_pos hname, directTexts_fill (by rfl)]
        simp only [Context.fill, writing_directive hkind, htexts]
        refine Framed.map ?_ (appending_writing next)
        -- Whether the outer one leaves anything must not hang on the prepend.
        refine (ih hbody (d := Rendering.opening (.conditional outer) b) rfl).merged ?_ hname _
        by_cases hsome : directTexts content ≠ [] ∨
            (gathering params (.conditional condition) a content).text ≠ ""
        · exact .inr fun i => contributed_ne hsome _
        · exact .inl fun i => contributed_empty hsome _
  | behind name b inner rest ih =>
    cases hkind : DirectiveKind.ofTag? name with
    | none =>
      simp only [Context.fill, writing_grouping hkind]
      exact ih hplace ((afterKeyword_write inner).1 hd)
    | some directive =>
      simp only [Context.fill, writing_directive hkind]
      refine ih hplace (Rendering.afterKeyword_merged ?_)
      simp [Rendering.start, Draft.afterKeyword_addFragments, hd]

end

/-- In a compiled statement, a conditional that is reached has its prepend in front of each of its
own texts, away from dynamic parts, and nowhere else: what its directives have gathered comes without
it, and all that is written before and behind is the same for every other prepend. -/
theorem compile_prependsOwnTexts {source : Source} {id : String} {params : List Param}
    {query : CompiledQuery} (h : compile source id params = .ok query) :
    ∃ s, source.statement? id = some s ∧
      query.sql = substitute (.ofList params) (Text.trimmed (s.written (.ofList params))) ∧
      ∀ place condition a content, s.body = place.fill (conditional condition a content) →
        Reached (.ofList params) place → condition.holds (.ofList params) a = true →
        prependOf a ≠ "" →
        ∃ before behind,
          let own (prepend : String) := contributed prepend (directTexts content)
            (gathering (.ofList params) (.conditional condition) a content).text
          s.written (.ofList params) = before ++ own (prependOf a) ++ behind ∧
          ∀ a', condition.holds (.ofList params) a' = true → prependOf a' ≠ "" →
            Statement.written { s with body := place.fill (conditional condition a' content) }
              (.ofList params) = before ++ own (prependOf a') ++ behind := by
  obtain ⟨s, hs, rfl⟩ := compile_eq_ok_iff.1 h
  refine ⟨s, hs, rfl, fun place condition a content hbody hplace hholds hprepend => ?_⟩
  have hwritten : ∀ body, Statement.written { s with body } (.ofList params) =
      (Draft.writing (.ofList params) (.statement s.kind) s.attributes true body .empty).text :=
    fun body => congrArg Draft.text (Statement.own_rendering { s with body } _)
  obtain ⟨before, behind, _, hframed⟩ := @framed_fill (.ofList params) condition
    {a' // condition.holds (.ofList params) a' = true ∧ prependOf a' ≠ ""} Subtype.val
    (fun i => i.2.1) (fun i => i.2.2) a content place hplace (.statement s.kind) s.attributes true
    .empty rfl
  have hall : ∀ a', condition.holds (.ofList params) a' = true → prependOf a' ≠ "" →
      Statement.written { s with body := place.fill (conditional condition a' content) }
        (.ofList params) = before ++ contributed (prependOf a') (directTexts content)
          (gathering (.ofList params) (.conditional condition) a content).text ++ behind :=
    fun a' hholds' hprepend' => (hwritten _).trans (hframed ⟨a', hholds', hprepend'⟩).1
  refine ⟨before, behind, ?_, hall⟩
  have hself := hall a hholds hprepend
  rwa [← hbody] at hself

/-- A conditional with a directive between two texts, in a group in another conditional: both texts
have the prepend in front, and what the directive leaves has its own. -/
theorem compile_prependsOwnTexts_twoTexts :
    let params : List Param := [⟨"a", .integer 1⟩]
    let content : Forest :=
      .text "a = 1"
        (.element "isNotNull" [("property", "a"), ("prepend", "AND")] (.text "b = 2" .nil)
          (.text "c = 3" .nil))
    let place : Context :=
      .text "SELECT a FROM t WHERE d = 0"
        (.inside "isNotNull" [("property", "a")] (.inside "group" [] (.here .nil) .nil)
          (.text " ORDER BY a" .nil))
    let a : Attributes := [("property", "a"), ("prepend", "OR")]
    let s : Statement := ⟨.select, [("id", "q")], place.fill (conditional .isNotNull a content)⟩
    Source.statement? "q" (.ofForest (.element "select" [("id", "q")] s.body .nil)) = some s ∧
      Reached (.ofList params) place ∧ Condition.isNotNull.holds (.ofList params) a = true ∧
      prependOf a ≠ "" ∧
      s.written (.ofList params) =
        "SELECT a FROM t WHERE d = 0\nOR\na = 1\nOR\nc = 3\nAND\nb = 2 ORDER BY a" ∧
      ∃ before behind,
        s.written (.ofList params) = before ++ "OR\na = 1\nOR\nc = 3\nAND\nb = 2" ++ behind ∧
        ∀ a', Condition.isNotNull.holds (.ofList params) a' = true → prependOf a' ≠ "" →
          Statement.written { s with body := place.fill (conditional .isNotNull a' content) }
              (.ofList params) =
            before ++ contributed (prependOf a') ["a = 1", "c = 3"] "AND\nb = 2" ++ behind := by
  intro params content place a s
  have hstatement : Source.statement? "q"
      (.ofForest (.element "select" [("id", "q")] s.body .nil)) = some s := by decide +kernel
  have hplace : Reached (.ofList params) place := by
    refine ⟨?_, ?_, trivial⟩
    · show Condition.holds (.ofList params) [("property", "a")] .isNotNull = true
      decide +kernel
    · trivial
  have hholds : Condition.isNotNull.holds (.ofList params) a = true := by decide +kernel
  have hprepend : prependOf a ≠ "" := by decide +kernel
  have hwritten : s.written (.ofList params) =
      "SELECT a FROM t WHERE d = 0\nOR\na = 1\nOR\nc = 3\nAND\nb = 2 ORDER BY a" := by
    decide +kernel
  have hgathered : (gathering (.ofList params) (.conditional .isNotNull) a content).text =
      "AND\nb = 2" := by decide +kernel
  have htexts : contributed (prependOf a) (directTexts content) "AND\nb = 2" =
      "OR\na = 1\nOR\nc = 3\nAND\nb = 2" := by decide +kernel
  obtain ⟨s', hs', -, hcontributed⟩ :=
    compile_prependsOwnTexts (compile_eq_ok_iff.2 ⟨s, hstatement, rfl⟩)
  obtain rfl : s = s' := Option.some.inj (hstatement.symm.trans hs')
  obtain ⟨before, behind, hself, hall⟩ :=
    hcontributed place .isNotNull a content rfl hplace hholds hprepend
  simp only [hgathered] at hself hall
  exact ⟨hstatement, hplace, hholds, hprepend, hwritten, before, behind,
    hself.trans (by rw [htexts]), hall⟩

/-- The prepend of a conditional without texts of its own is not written, and with two of them it is
written twice. -/
theorem prepend_lostOrRepeated :
    let compiled (body : Forest) : Except CompileError Shown :=
      compileShown (.ofForest (.element "select" [("id", "q")] body .nil)) "q"
        [⟨"a", .integer 1⟩]
    let isBound (prepend : String) (content : Forest) : Forest :=
      conditional .isNotNull [("property", "a"), ("prepend", prepend)] content
    compiled (.text "SELECT a FROM t" .nil ++
        isBound "WHERE" (conditional .isNotNull [("property", "a")] (.text "b = 2" .nil))) =
      .ok ⟨"SELECT a FROM t\nb = 2", []⟩ ∧
    ¬ "WHERE\n".toList <:+: "SELECT a FROM t\nb = 2".toList ∧
    compiled (.text "SELECT a FROM t WHERE d = 0" .nil ++
        isBound "OR" (.text "a = 1" (isBound "AND" (.text "b = 2" .nil) ++ .text "c = 3" .nil))) =
      .ok ⟨"SELECT a FROM t WHERE d = 0\nOR\na = 1\nOR\nc = 3\nAND\nb = 2", []⟩ := by
  decide +kernel

end SqlMaps.Template
