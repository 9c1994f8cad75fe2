import SqlMaps.Proofs.Template.Arena
import SqlMaps.Proofs.Template.Around
import SqlMaps.Proofs.Template.Scanning
import SqlMaps.Proofs.Template.Where

/-! Which placeholders are left in a compiled query.

The text of a statement has its placeholders replaced when it is complete, so it does not matter
by which way a text has come into it. A select key has each text that stands directly in it
replaced as it is read, and nothing after that: what directives inside the key leave there comes
from their own drafts, where nothing is replaced. `compile_resolvesOwnTexts` says what follows from
this, for templates in which every `#` belongs to a placeholder: no bound one is left in the
statement, and in a key just those that directives inside it have left there. -/
namespace SqlMaps.Template
open Markup

/-- The placeholders of bound names in a text. -/
def unresolved (params : Params) (text : String) : List String :=
  (placeholders text).filter fun name => (params.get? name).isSome

/-- The texts that a directive leaves in the draft of the part it stands in, away from keywords. -/
def leftBy (params : Params) (directive : DirectiveKind) (a : Attributes) (inner : Forest) :
    List String :=
  match directive with
  | .selectKey => []
  | .dynamic =>
    if (gathering params .dynamic a inner).text = "" then []
    else [prependOf a, (gathering params .dynamic a inner).text]
  | .conditional condition =>
    if condition.holds params a then
      (directTexts inner).flatMap (fun content => [prependOf a, content]) ++
        [(gathering params (.conditional condition) a inner).text]
    else []

/-- What the directives of a forest leave in the part it stands in, in document order. -/
def leftIn (params : Params) : Forest → List String
  | .nil => []
  | .text _ next => leftIn params next
  | .element name a inner next =>
    (match DirectiveKind.ofTag? name with
      | none => leftIn params inner
      | some directive => leftBy params directive a inner) ++ leftIn params next

/-- The select keys that belong to the part a forest stands in, each with its body. -/
def keysIn : Forest → List (Attributes × Forest)
  | .nil => []
  | .text _ next => keysIn next
  | .element name a inner next =>
    (match DirectiveKind.ofTag? name with
      | none => keysIn inner
      | some .selectKey => [(a, inner)]
      | some _ => []) ++ keysIn next

/-- Every `#` in a text, or in a prepend, belongs to a placeholder. -/
def ClosedEvent : Event → Prop
  | .text content => Closed content
  | .start _ a => Closed (prependOf a)
  | _ => True

instance : DecidablePred ClosedEvent
  | .text content => inferInstanceAs (Decidable (Closed content))
  | .start _ a => inferInstanceAs (Decidable (Closed (prependOf a)))
  | .finish _ => .isTrue trivial
  | .endOfStream => .isTrue trivial

/-! ### What has been read of a statement -/

namespace Reader
variable {P : Event → Prop}

/-- The property holds of all that the reader has read of the statement. -/
def Holding (P : Event → Prop) : Reader → Prop
  | .inside _ root inner =>
    (∀ event ∈ root.body.events, P event) ∧
      ∀ part ∈ inner, P (.start part.name part.attributes) ∧ ∀ event ∈ part.body.events, P event
  | _ => True

/-- Reading on, it holds of all that has been read then, and of the statement at its end. -/
inductive HoldingNext (P : Event → Prop) : Progress → Prop
  | refused (e : CompileError) : HoldingNext P (.done (.error e))
  | ended {s : Statement} : (∀ event ∈ s.body.events, P event) → HoldingNext P (.done (.ok s))
  | further {reader : Reader} : reader.Holding P → HoldingNext P (.continue reader)

theorem holding_addInside {kind : StatementKind} {root : OpenPart} {inner : List OpenPart}
    (h : (Reader.inside kind root inner).Holding P) {f : Forest} (hf : ∀ event ∈ f.events, P event) :
    (addInside kind root inner f).Holding P := by
  obtain ⟨hroot, hinner⟩ := h
  cases inner with
  | nil =>
    refine ⟨?_, nofun⟩
    simpa [OpenPart.add, Forest.events_append, or_imp, forall_and] using ⟨hroot, hf⟩
  | cons part outer =>
    obtain ⟨⟨hstart, hbody⟩, houter⟩ := List.forall_mem_cons.1 hinner
    refine ⟨hroot, List.forall_mem_cons.2 ⟨⟨hstart, ?_⟩, houter⟩⟩
    simpa [OpenPart.add, Forest.events_append, or_imp, forall_and] using ⟨hbody, hf⟩

theorem Holding.next (hend : ∀ name, P (.finish name)) {reader : Reader} (h : reader.Holding P)
    (id : String) {event : Event} (hevent : ∀ e ∈ reader.eventInside event, P e) :
    HoldingNext P (reader.step id event) := by
  rcases reader with _ | ⟨name, depth⟩ | ⟨kind, root, inner⟩
  · cases event with
    | start name a =>
      simp only [Reader.step, stepSeeking]
      cases StatementKind.ofTag? name with
      | some kind =>
        dsimp only
        split
        · exact .further ⟨List.forall_mem_nil _, List.forall_mem_nil _⟩
        · exact .further trivial
      | none =>
        cases DirectiveKind.ofTag? name with
        | some directive => exact .refused _
        | none => exact .further trivial
    | text => exact .further trivial
    | finish => exact .further trivial
    | endOfStream => exact .refused _
  · cases event with
    | start => exact .further trivial
    | text => exact .further trivial
    | finish =>
      simp only [Reader.step, stepSkipping]
      split <;> exact .further trivial
    | endOfStream => exact .refused _
  · have hnow : P event := hevent event List.mem_cons_self
    cases event with
    | start name a =>
      simp only [Reader.step, stepInside]
      split
      · exact .refused _
      · exact .further ⟨h.1, List.forall_mem_cons.2 ⟨⟨hnow, List.forall_mem_nil _⟩, h.2⟩⟩
    | text content => exact .further (holding_addInside h (by simpa [Forest.events] using hnow))
    | finish name =>
      cases inner with
      | nil => exact .ended h.1
      | cons part outer =>
        obtain ⟨⟨hstart, hbody⟩, houter⟩ := List.forall_mem_cons.1 h.2
        refine .further (@holding_addInside P kind root outer ⟨h.1, houter⟩ part.close ?_)
        simpa [OpenPart.close, Forest.events, or_imp, forall_and] using
          ⟨hstart, hbody, hend part.name⟩
    | endOfStream => exact .refused _

/-- What holds of every event that is read inside the statement holds of the statement. -/
theorem Holding.of_result (hend : ∀ name, P (.finish name)) {reader : Reader} (h : reader.Holding P)
    {id : String} {answers : List Answer} (hread : ∀ event ∈ readInside id reader answers, P event)
    {s : Statement} (hs : reader.result id answers = .ok s) : ∀ event ∈ s.body.events, P event := by
  induction answers generalizing reader with
  | nil =>
    obtain ⟨e, he⟩ := reader.step_endOfStream id
    simp only [result, run, he] at hs
    cases hs
  | cons answer rest ih =>
    cases answer with
    | error cause => cases hs
    | ok event =>
      simp only [readInside, List.forall_mem_append] at hread
      have hnext := h.next hend id hread.1
      generalize hp : reader.step id event = p at hnext hread
      cases hnext with
      | refused e =>
        rw [result_of_done hp] at hs
        cases hs
      | ended hbody =>
        rw [result_of_done hp] at hs
        cases hs
        exact hbody
      | further hholding =>
        rw [result_of_continue hp] at hs
        exact ih hholding hread.2 hs

end Reader

/-- What holds of every event that is read inside a statement holds of the events of its body. -/
theorem Source.of_readInside {P : Event → Prop} (hend : ∀ name, P (.finish name)) {source : Source}
    {id : String} (hread : ∀ event ∈ source.readInside id, P event) {s : Statement}
    (hs : source.statement? id = some s) : ∀ event ∈ s.body.events, P event := by
  cases source with
  | unavailable cause => cases hs
  | answering answers =>
    have hresult : Reader.seeking.result id answers = .ok s := by
      simp only [Source.statement?] at hs
      generalize Reader.seeking.result id answers = r at hs
      cases r with
      | error e => cases hs
      | ok s' => exact congrArg Except.ok (Option.some.inj hs)
    exact @Reader.Holding.of_result P hend .seeking trivial id answers hread s hresult

/-! ### Marks in drafts -/

section
variable {params : Params} {s t : String} {d : Draft}

theorem unresolved_append (hs : Closed s) (t : String) :
    unresolved params (s ++ t) = unresolved params s ++ unresolved params t := by
  rw [unresolved, placeholders_append hs, List.filter_append]
  rfl

@[simp] theorem unresolved_empty : unresolved params "" = [] := by
  simp [unresolved, placeholders, Piece.ofText]

theorem unresolved_line : unresolved params "\n" = [] := by
  rw [unresolved, placeholders, Piece.ofText_of_not_mem (by decide), name?_char]
  rfl

/-- A text that has been substituted in has no bound placeholder. -/
theorem unresolved_substitute (hparams : InsertsNoMarks params) (hs : Closed s) :
    unresolved params (substitute params s) = [] := by
  rw [unresolved, placeholders_substitute hparams hs, List.filter_filter, List.filter_eq_nil_iff]
  intro name _
  cases params.get? name <;> simp

theorem closed_behindPrepend (hs : Closed s) (ht : Closed t) : Closed (s ++ "\n" ++ t) :=
  (hs.append (closed_of_not_mem (by decide))).append ht

theorem unresolved_behindPrepend (hs : Closed s) (t : String) :
    unresolved params (s ++ "\n" ++ t) = unresolved params s ++ unresolved params t := by
  rw [unresolved_append (hs.append (closed_of_not_mem (by decide))), unresolved_append hs,
    unresolved_line, List.append_nil]

namespace Draft

theorem closed_merge (hd : Closed d.text) (hs : Closed s) : Closed (d.merge s).text := by
  rw [text_merge, onNewLine]
  split
  · exact hd.append hs
  · exact closed_behindPrepend hd hs

/-- A body that is merged brings its placeholders along. -/
theorem unresolved_merge (hd : Closed d.text) (s : String) :
    unresolved params (d.merge s).text = unresolved params d.text ++ unresolved params s := by
  rw [text_merge, onNewLine]
  split
  · exact unresolved_append hd s
  · exact unresolved_behindPrepend hd s

theorem closed_addFragments (hd : Closed d.text) {prepend : String} (hprepend : Closed prepend)
    {texts : List String} (htexts : ∀ content ∈ texts, Closed content) :
    Closed (d.addFragments prepend texts).text := by
  induction texts generalizing d with
  | nil => exact hd
  | cons content rest ih =>
    obtain ⟨hcontent, hrest⟩ := List.forall_mem_cons.1 htexts
    refine ih (d := d.addFragment prepend content) ?_ hrest
    rw [addFragment]
    split
    · exact closed_merge hd hcontent
    · exact closed_merge hd (closed_behindPrepend hprepend hcontent)

/-- Away from a keyword every fragment brings the placeholders of its prepend along. -/
theorem unresolved_addFragments (hd : Closed d.text) (hflag : d.afterKeyword = false)
    {prepend : String} (hprepend : Closed prepend) {texts : List String}
    (htexts : ∀ content ∈ texts, Closed content) :
    unresolved params (d.addFragments prepend texts).text =
      unresolved params d.text ++
        (texts.flatMap fun content => [prepend, content]).flatMap (unresolved params) := by
  induction texts generalizing d with
  | nil => simp
  | cons content rest ih =>
    obtain ⟨hcontent, hrest⟩ := List.forall_mem_cons.1 htexts
    have hfragment : unresolved params (d.addFragment prepend content).text =
        unresolved params d.text ++ (unresolved params prepend ++ unresolved params content) := by
      rw [addFragment, hflag]
      by_cases hnone : prepend = ""
      · simp [hnone, unresolved_merge hd]
      · simp [hnone, unresolved_merge hd, unresolved_behindPrepend hprepend]
    have hclosed : Closed (d.addFragment prepend content).text :=
      @closed_addFragments d hd prepend hprepend [content] (by simpa using hcontent)
    rw [addFragments_cons, ih hclosed (afterKeyword_addFragment prepend) hrest, hfragment]
    simp [List.append_assoc]

end Draft

end

/-! ### Marks in what is written -/

section
variable {params : Params} {kind : Kind} {attributes : Attributes} {ownText : Bool}

theorem closedEvent_text {content : String} {next : Forest} :
    (∀ event ∈ (Forest.text content next).events, ClosedEvent event) ↔
      Closed content ∧ ∀ event ∈ next.events, ClosedEvent event := by
  simp [Forest.events, ClosedEvent]

theorem closedEvent_element {name : String} {a : Attributes} {inner next : Forest} :
    (∀ event ∈ (Forest.element name a inner next).events, ClosedEvent event) ↔
      Closed (prependOf a) ∧ (∀ event ∈ inner.events, ClosedEvent event) ∧
        ∀ event ∈ next.events, ClosedEvent event := by
  simp [Forest.events, ClosedEvent, or_imp, forall_and]

theorem closed_directTexts {f : Forest} (hf : ∀ event ∈ f.events, ClosedEvent event) :
    ∀ content ∈ directTexts f, Closed content := by
  induction f with
  | nil => nofun
  | text content next ih =>
    obtain ⟨hcontent, hnext⟩ := closedEvent_text.1 hf
    exact List.forall_mem_cons.2 ⟨hcontent, ih hnext⟩
  | element name a inner next _ ih => exact ih (closedEvent_element.1 hf).2.2

theorem closed_textsAround {f : Forest} (hf : ∀ event ∈ f.events, ClosedEvent event) :
    ∀ content ∈ textsAround params kind attributes f, Closed content := by
  rcases kind with kind | (_ | condition | _)
  · exact List.forall_mem_nil _
  · exact List.forall_mem_nil _
  · simp only [textsAround]
    split
    · exact closed_directTexts hf
    · exact List.forall_mem_nil _
  · exact List.forall_mem_nil _

theorem closed_merged {directive : DirectiveKind} {a : Attributes} (ha : Closed (prependOf a))
    {gathered d : Draft} (hgathered : Closed gathered.text) (hd : Closed d.text) :
    Closed (Rendering.merged params directive a (.start gathered d)).text := by
  cases directive with
  | selectKey => exact hd
  | dynamic =>
    simp only [Rendering.merged]
    split
    · exact hd
    · split
      · exact Draft.closed_merge hd hgathered
      · exact Draft.closed_merge hd (closed_behindPrepend ha hgathered)
  | conditional condition =>
    simp only [Rendering.merged]
    split
    · exact hd
    · exact Draft.closed_merge hd hgathered

theorem closed_close {directive : DirectiveKind} {a : Attributes} (ha : Closed (prependOf a))
    {inner : Forest} (hinner : ∀ event ∈ inner.events, ClosedEvent event)
    (hgathered : Closed (gathering params directive a inner).text) {p : Page}
    (hp : Closed p.own.text) :
    Closed (p.close params directive a (write params (.directive directive) a true inner
      (.start (Rendering.opening directive a) p.own))).own.text := by
  rw [own_close]
  exact closed_merged ha hgathered (Draft.closed_addFragments hp ha (closed_textsAround hinner))

theorem closed_opening (directive : DirectiveKind) (a : Attributes) :
    Closed (Rendering.opening directive a).text :=
  closed_of_not_mem (by simp [Rendering.opening, Draft.empty])

/-- Of texts and prepends whose marks all belong to placeholders only such drafts are written. -/
theorem closed_write (hparams : InsertsNoMarks params) {f : Forest}
    (hf : ∀ event ∈ f.events, ClosedEvent event) {p : Page} (hp : Closed p.own.text) :
    Closed (write params kind attributes ownText f p).own.text := by
  induction f generalizing kind attributes ownText p with
  | nil => exact hp
  | text content next ih =>
    obtain ⟨hcontent, hnext⟩ := closedEvent_text.1 hf
    cases ownText with
    | false => exact ih hnext hp
    | true =>
      refine ih hnext ?_
      rcases kind with kind | (_ | condition | _)
      · exact hp.append hcontent
      · exact hp.append hcontent
      · simpa only [if_true, own_addText_conditional] using hp
      · exact hp.append (hcontent.substitute hparams)
  | element name a inner next ihInner ihNext =>
    obtain ⟨ha, hinner, hnext⟩ := closedEvent_element.1 hf
    simp only [write]
    split
    · exact ihNext hnext (ihInner hinner hp)
    · exact ihNext hnext (closed_close ha hinner (ihInner hinner (closed_opening _ a)) hp)

theorem closed_gathering (hparams : InsertsNoMarks params) (directive : DirectiveKind)
    (a : Attributes) {inner : Forest} (hinner : ∀ event ∈ inner.events, ClosedEvent event) :
    Closed (gathering params directive a inner).text :=
  closed_write hparams hinner (closed_opening directive a)

/-! ### Select keys -/

/-- The keys that are written are those in the tree, each with what it gathers. -/
theorem keys_write (f : Forest) (p : Page) :
    (write params kind attributes ownText f p).keys =
      p.keys ++ (keysIn f).map fun (a, body) =>
        (a, Text.trimmed (gathering params .selectKey a body).text) := by
  induction f generalizing kind attributes ownText p with
  | nil => simp [write, keysIn]
  | text content next ih =>
    cases ownText with
    | false => exact ih p
    | true => exact ih (p.addText params kind attributes content)
  | element name a inner next ihInner ihNext =>
    simp only [write, keysIn]
    cases DirectiveKind.ofTag? name with
    | none => simp [ihNext, ihInner]
    | some directive =>
      have hown : (write params (.directive directive) a true inner
          (.start (Rendering.opening directive a) p.own)).own = gathering params directive a inner :=
        own_write_congr inner rfl
      cases directive with
      | selectKey => simp [ihNext, Page.close, hown]
      | dynamic => simp [ihNext, Page.close]
      | conditional condition => simp [ihNext, Page.close]

/-- What a directive brings along into a draft away from keywords. -/
theorem unresolved_close {directive : DirectiveKind}
    {a : Attributes} (ha : Closed (prependOf a)) {inner : Forest}
    (hinner : ∀ event ∈ inner.events, ClosedEvent event) {p : Page} (hp : Closed p.own.text)
    (hflag : p.own.afterKeyword = false) :
    unresolved params (p.close params directive a (write params (.directive directive) a true inner
        (.start (Rendering.opening directive a) p.own))).own.text =
      unresolved params p.own.text ++ (leftBy params directive a inner).flatMap (unresolved params) := by
  rw [own_close]
  cases directive with
  | selectKey => simp [Rendering.merged, Rendering.start, textsAround, leftBy]
  | dynamic =>
    by_cases hempty : (gathering params .dynamic a inner).text = ""
    · simp [Rendering.merged, Rendering.start, textsAround, leftBy, hempty]
    · by_cases hnone : prependOf a = ""
      · simp [Rendering.merged, Rendering.start, textsAround, leftBy, hempty, hnone,
          Draft.unresolved_merge hp]
      · simp [Rendering.merged, Rendering.start, textsAround, leftBy, hempty, hnone,
          Draft.unresolved_merge hp, unresolved_behindPrepend ha]
  | conditional condition =>
    by_cases hholds : condition.holds params a = true
    · have htexts := closed_directTexts hinner
      have hfragments := @Draft.unresolved_addFragments params p.own hp hflag _ ha _ htexts
      by_cases hempty : (gathering params (.conditional condition) a inner).text = ""
      · simp [Rendering.merged, Rendering.start, textsAround, leftBy, hempty, hholds, hfragments]
      · simp [Rendering.merged, Rendering.start, textsAround, leftBy, hempty, hholds, hfragments,
          Draft.unresolved_merge (Draft.closed_addFragments hp ha htexts)]
    · simp [Rendering.merged, Rendering.start, textsAround, leftBy, hholds]

/-- Of the bound placeholders in a select key, those are left that directives in it leave. -/
theorem unresolved_write_key (hparams : InsertsNoMarks params) {f : Forest}
    (hf : ∀ event ∈ f.events, ClosedEvent event) {p : Page} (hp : Closed p.own.text)
    (hflag : p.own.afterKeyword = false) :
    unresolved params (write params (.directive .selectKey) attributes ownText f p).own.text =
      unresolved params p.own.text ++ (leftIn params f).flatMap (unresolved params) := by
  induction f generalizing ownText p with
  | nil => simp [write, leftIn]
  | text content next ih =>
    obtain ⟨hcontent, hnext⟩ := closedEvent_text.1 hf
    cases ownText with
    | false => exact ih hnext hp hflag
    | true =>
      have htext : unresolved params
          (p.addText params (.directive .selectKey) attributes content).own.text =
            unresolved params p.own.text := by
        have hadded := @unresolved_append params _ hp (substitute params content)
        rwa [unresolved_substitute hparams hcontent, List.append_nil] at hadded
      have hclosed : Closed
          (p.addText params (.directive .selectKey) attributes content).own.text :=
        hp.append (hcontent.substitute hparams)
      exact (ih hnext hclosed hflag).trans (congrArg (· ++ _) htext)
  | element name a inner next ihInner ihNext =>
    obtain ⟨ha, hinner, hnext⟩ := closedEvent_element.1 hf
    simp only [write, leftIn, List.flatMap_append, ← List.append_assoc]
    cases DirectiveKind.ofTag? name with
    | none =>
      rw [ihNext hnext (closed_write hparams hinner hp) ((afterKeyword_write inner).1 hflag),
        ihInner hinner hp hflag]
    | some directive =>
      have hclosed : Closed (p.close params directive a (write params (.directive directive) a true
          inner (.start (Rendering.opening directive a) p.own))).own.text :=
        closed_close ha hinner (closed_gathering hparams directive a hinner) hp
      have hafter : (p.close params directive a (write params (.directive directive) a true
          inner (.start (Rendering.opening directive a) p.own))).own.afterKeyword = false :=
        Rendering.afterKeyword_merged ((afterKeyword_write inner).2 hflag)
      rw [ihNext hnext hclosed hafter, unresolved_close ha hinner hp hflag]

theorem closed_keysIn {f : Forest} (hf : ∀ event ∈ f.events, ClosedEvent event) :
    ∀ key ∈ keysIn f, ∀ event ∈ key.2.events, ClosedEvent event := by
  induction f with
  | nil => nofun
  | text content next ih => exact ih (closedEvent_text.1 hf).2
  | element name a inner next ihInner ihNext =>
    obtain ⟨-, hinner, hnext⟩ := closedEvent_element.1 hf
    simp only [keysIn, List.forall_mem_append]
    refine ⟨?_, ihNext hnext⟩
    split
    · exact ihInner hinner
    · simpa using hinner
    · nofun

/-- A select key with its text trimmed has the bound placeholders that directives in it leave. -/
theorem unresolved_key (hparams : InsertsNoMarks params) (a : Attributes) {body : Forest}
    (hbody : ∀ event ∈ body.events, ClosedEvent event) :
    unresolved params (Text.trimmed (gathering params .selectKey a body).text) =
      (leftIn params body).flatMap (unresolved params) := by
  have hkey := @unresolved_write_key params a true hparams body hbody
    (.start (Rendering.opening .selectKey a) .empty) (closed_opening _ a) rfl
  have hempty : unresolved params (Rendering.opening .selectKey a).text = [] := unresolved_empty
  rw [Page.own_start, hempty, List.nil_append] at hkey
  rw [unresolved, placeholders_trimmed]
  exact hkey

end

/-- Where every `#` that is read inside a statement belongs to a placeholder, and none is inserted,
the compiled statement has no bound placeholder. A select key has just those, one by one, that the
directives inside it have left there: what stands directly in the key is resolved, and nothing
else. -/
theorem compile_resolvesOwnTexts {source : Source} {id : String} {params : List Param}
    (hread : ∀ event ∈ source.readInside id, ClosedEvent event)
    (hparams : InsertsNoMarks (.ofList params)) {query : CompiledQuery}
    (h : compile source id params = .ok query) :
    ∃ s, source.statement? id = some s ∧ s.compile (.ofList params) = query ∧
      unresolved (.ofList params) query.sql = [] ∧
      query.selectKeys.map (fun key => (key.attributes, unresolved (.ofList params) key.sql)) =
        (keysIn s.body).map fun (a, body) =>
          (a, (leftIn (.ofList params) body).flatMap (unresolved (.ofList params))) := by
  obtain ⟨s, hs, rfl⟩ := compile_eq_ok_iff.1 h
  have hbody := Source.of_readInside (fun _ => trivial) hread hs
  refine ⟨s, hs, rfl, ?_, ?_⟩
  · have hwritten : Closed (s.rendering (.ofList params)).own.text :=
      s.own_rendering _ ▸ closed_write hparams hbody (closed_of_not_mem (by simp [Draft.empty]))
    exact unresolved_substitute hparams hwritten.trimmed
  · have hshown : (s.compile (.ofList params)).selectKeys.map (fun key => (key.attributes, key.sql)) =
        (keysIn s.body).map fun (a, body) =>
          (a, Text.trimmed (gathering (.ofList params) .selectKey a body).text) := by
      have hkeys := congrArg Shown.keys (s.shown_compile (.ofList params))
      rwa [Statement.page, keys_write] at hkeys
    have hunresolved := congrArg
      (List.map fun key : Attributes × String => (key.1, unresolved (.ofList params) key.2)) hshown
    rw [List.map_map, List.map_map] at hunresolved
    refine hunresolved.trans (List.map_congr_left ?_)
    rintro ⟨a, body⟩ hmem
    exact congrArg (Prod.mk a) (unresolved_key hparams a (closed_keysIn hbody _ hmem))

/-- What stands directly in the key is resolved. Of the conditional inside it, what is bound stays,
and what is not bound does not count. -/
theorem compile_resolvesOwnTexts_nested :
    let body : Forest :=
      .text "INSERT INTO t VALUES (#(a)#)"
        (.element "selectKey" [("keyProperty", "id")]
          (.text "SELECT #(a)#"
            (.element "isNotNull" [("property", "a"), ("prepend", "WHERE")]
              (.text "b = #(a)# AND c = #(x)#" .nil) .nil))
          .nil)
    let source : Source := .ofForest (.element "insert" [("id", "q")] body .nil)
    let params : List Param := [⟨"a", .integer 5⟩]
    (∀ event ∈ source.readInside "q", ClosedEvent event) ∧ InsertsNoMarks (.ofList params) ∧
      ∃ query, compile source "q" params = .ok query ∧ unresolved (.ofList params) query.sql = [] ∧
        query.selectKeys.map (fun key => (key.attributes, unresolved (.ofList params) key.sql)) =
          [([("keyProperty", "id")], ["a"])] := by
  intro body source params
  have hread : ∀ event ∈ source.readInside "q", ClosedEvent event := by decide +kernel
  have hparams : InsertsNoMarks (.ofList params) := by
    intro name v hv
    obtain rfl : v = .integer 5 := by
      simp only [Params.get?, Params.ofList, params, List.map_cons, List.map_nil,
        List.reverse_singleton, List.lookup_cons, List.lookup_nil] at hv
      split at hv
      · exact (Option.some.inj hv).symm
      · cases hv
    decide +kernel
  have hstatement : source.statement? "q" = some ⟨.insert, [("id", "q")], body⟩ := by
    decide +kernel
  obtain ⟨query, h⟩ : ∃ query, compile source "q" params = .ok query :=
    ⟨_, compile_eq_ok_iff.2 ⟨_, hstatement, rfl⟩⟩
  obtain ⟨s, hs, -, hsql, hkeys⟩ := compile_resolvesOwnTexts hread hparams h
  obtain rfl : _ = s := Option.some.inj (hstatement.symm.trans hs)
  have hleft : (keysIn body).map (fun (a, inner) =>
      (a, (leftIn (.ofList params) inner).flatMap (unresolved (.ofList params)))) =
        [([("keyProperty", "id")], ["a"])] := by
    decide +kernel
  exact ⟨hread, hparams, query, h, hsql, hkeys.trans hleft⟩

/-- The placeholder of a bound name is left in a select key. -/
theorem key_keepsNestedPlaceholder :
    compileShown
        (.ofForest
          (.element "insert" [("id", "q")]
            (.text "INSERT INTO t VALUES (1)"
              (.element "selectKey" [("keyProperty", "id")]
                (.element "isNotNull" [("property", "a")] (.text "SELECT #(a)#" .nil) .nil)
                .nil))
            .nil))
        "q" [⟨"a", .integer 5⟩] =
      .ok ⟨"INSERT INTO t VALUES (1)", [([("keyProperty", "id")], "SELECT #(a)#")]⟩ ∧
    "a" ∈ unresolved (.ofList [⟨"a", .integer 5⟩]) "SELECT #(a)#" := by
  decide +kernel

end SqlMaps.Template
