import SqlMaps.Proofs.Markup.Accepted

/-! The grammar of documents.

A document is written as gaps and tokens in turn (`Segment.Alternating`) whose start and end
tags match (`Token.Balanced`), and each gap and each token comes to its events
(`Segment.ComesTo`). Reading goes from token to token and knows of the open elements only; what
the rest of a document has to be for a reader with open elements is `Closes`. A text is accepted
if and only if it can be written so, and what it comes to can be read off how it is written
(`events_eq_ok_iff_alternating`). -/
namespace SqlMaps.Markup

namespace Token

/-- Tokens whose tags match: an end tag closes the last element that is open, and has its name. -/
inductive Balanced : List Token → Prop where
  | nil : Balanced []
  | aside {rest : List Token} : Balanced rest → Balanced (.aside :: rest)
  | verbatim {content : List Char} {rest : List Token} :
      Balanced rest → Balanced (.verbatim content :: rest)
  | empty {name : String} {a : Attributes} {rest : List Token} :
      Balanced rest → Balanced (.opening name a true :: rest)
  | element {name : String} {a : Attributes} {inner rest : List Token} :
      Balanced inner → Balanced rest →
      Balanced (.opening name a false :: (inner ++ .closing name :: rest))

variable {names : List String} {ts : List Token}

@[simp] theorem balanced_aside : Balanced (.aside :: ts) ↔ Balanced ts :=
  ⟨fun | .aside h => h, .aside⟩

@[simp] theorem balanced_verbatim {content : List Char} :
    Balanced (.verbatim content :: ts) ↔ Balanced ts :=
  ⟨fun | .verbatim h => h, .verbatim⟩

@[simp] theorem balanced_empty {name : String} {a : Attributes} :
    Balanced (.opening name a true :: ts) ↔ Balanced ts :=
  ⟨fun | .empty h => h, .empty⟩

/-- Tokens that match but for the end tags of the elements that are open in front of them, the
innermost first. -/
def Closes : List String → List Token → Prop
  | [], ts => Balanced ts
  | name :: names, ts =>
    ∃ inner rest, ts = inner ++ .closing name :: rest ∧ Balanced inner ∧ Closes names rest

theorem closes_nil : Closes names [] ↔ names = [] := by
  cases names with
  | nil => exact ⟨fun _ => rfl, fun _ => .nil⟩
  | cons name names => simp [Closes]

/-- What matches for itself may stand in front. -/
theorem closes_append (front : List Token) (hfront : ∀ ts, Balanced ts → Balanced (front ++ ts))
    (h : Closes names ts) : Closes names (front ++ ts) := by
  cases names with
  | nil => exact hfront ts h
  | cons name names =>
    obtain ⟨inner, rest, rfl, hinner, hrest⟩ := h
    exact ⟨front ++ inner, rest, (List.append_assoc ..).symm, hfront inner hinner, hrest⟩

/-- A token that is no tag of an element with content can be left out. -/
theorem closes_cons_iff {t : Token} (ht : ∀ ts, Balanced (t :: ts) ↔ Balanced ts) :
    Closes names (t :: ts) ↔ Closes names ts := by
  constructor
  · intro h
    cases names with
    | nil => exact (ht ts).1 h
    | cons name names =>
      obtain ⟨inner, rest, hts, hinner, hrest⟩ := h
      cases inner with
      | nil =>
        obtain ⟨rfl, rfl⟩ := List.cons.inj hts
        cases (ht []).2 .nil
      | cons t' inner =>
        obtain ⟨rfl, rfl⟩ := List.cons.inj hts
        exact ⟨inner, rest, rfl, (ht inner).1 hinner, hrest⟩
  · exact closes_append [t] fun ts => (ht ts).2

/-- A start tag opens an element. -/
theorem closes_opening_iff {name : String} {a : Attributes} :
    Closes names (.opening name a false :: ts) ↔ Closes (name :: names) ts := by
  constructor
  · intro h
    cases names with
    | nil =>
      cases h with
      | element hinner hrest => exact ⟨_, _, rfl, hinner, hrest⟩
    | cons outer names =>
      obtain ⟨before, rest, hts, hbefore, hrest⟩ := h
      cases hbefore with
      | element hinner hbehind =>
        simp only [List.cons_append, List.cons.injEq, Token.opening.injEq] at hts
        obtain ⟨⟨rfl, rfl, -⟩, rfl⟩ := hts
        exact ⟨_, _, List.append_assoc .., hinner, _, rest, rfl, hbehind, hrest⟩
      | _ => simp at hts
  · rintro ⟨inner, rest, hts, hinner, hrest⟩
    rw [hts]
    have hfront := closes_append (.opening name a false :: (inner ++ [.closing name]))
      (fun ts hts => by simpa using Balanced.element hinner hts) hrest
    simpa using hfront

/-- An end tag closes the element that was opened last. -/
theorem closes_closing_iff {name : String} :
    Closes names (.closing name :: ts) ↔ ∃ outer, names = name :: outer ∧ Closes outer ts := by
  constructor
  · intro h
    cases names with
    | nil => cases h
    | cons inner outer =>
      obtain ⟨before, rest, hts, hbefore, hrest⟩ := h
      cases hbefore with
      | nil =>
        obtain ⟨he, rfl⟩ := List.cons.inj hts
        cases he
        exact ⟨outer, rfl, hrest⟩
      | _ => simp at hts
  · rintro ⟨outer, hnames, h⟩
    rw [hnames]
    exact ⟨[], ts, rfl, .nil, h⟩

end Token

namespace Segment
open Token
variable {names : List String} {segments : List Segment}

/-- The token of a segment, if it is one. -/
def token? : Segment → Option Token
  | .gap _ => none
  | .token t _ => some t

@[simp] theorem filterMap_token?_gap (content : List Char) (rest : List Segment) :
    (.gap content :: rest).filterMap token? = rest.filterMap token? := rfl

@[simp] theorem filterMap_token?_token (t : Token) (source : List Char) (rest : List Segment) :
    (.token t source :: rest).filterMap token? = t :: rest.filterMap token? := rfl

/-- One token after another is read if and only if the tags match. -/
theorem nested_iff_closes (hdata : ∀ content, .gap content ∈ segments → '<' ∉ content) :
    Nested names segments ↔ Closes names (segments.filterMap token?) := by
  induction segments generalizing names with
  | nil => exact closes_nil.symm
  | cons segment rest ih =>
    have ih : ∀ {names}, Nested names rest ↔ Closes names (rest.filterMap token?) :=
      ih fun content hmem => hdata content (List.mem_cons_of_mem _ hmem)
    cases segment with
    | gap content =>
      have hcontent := hdata content (List.mem_cons_self ..)
      simp [Nested, inside?, hcontent, ih]
    | token t source =>
      simp only [Nested, ih, filterMap_token?_token]
      rcases t with _ | content | ⟨name, a, _ | _⟩ | name
      · rw [closes_cons_iff fun ts => balanced_aside]
        simp [inside?]
      · rw [closes_cons_iff fun ts => balanced_verbatim]
        simp [inside?]
      · rw [closes_opening_iff]
        simp [inside?]
      · rw [closes_cons_iff fun ts => balanced_empty]
        simp [inside?]
      · rw [closes_closing_iff]
        cases names with
        | nil => simp [inside?]
        | cons inner outer => by_cases h : inner = name <;> simp [inside?, h]

/-! ### Gaps and tokens -/

/-- A gap, and then a token and a gap, any number of times. There is no `<` in a gap, and a
token is written as its kind is. -/
inductive Alternating : List Segment → Prop where
  | gap {content : List Char} : '<' ∉ content → Alternating [.gap content]
  | token {content source : List Char} {t : Token} {rest : List Segment} : '<' ∉ content →
      Written t source → Alternating rest → Alternating (.gap content :: .token t source :: rest)

/-- The events that a gap or a token comes to. The references in a gap are decoded, what stands
in a token is taken as it is. -/
inductive ComesTo : Segment → List Event → Prop where
  | blank {content : List Char} : (∀ c ∈ content, Text.isBlank c = true) →
      ComesTo (.gap content) []
  | data {content decoded : List Char} : (∃ c ∈ content, Text.isBlank c = false) →
      Entity.Decodes content decoded → ComesTo (.gap content) [.text (String.ofList decoded)]
  | aside {source : List Char} : ComesTo (.token .aside source) []
  | nothing {source : List Char} : ComesTo (.token (.verbatim []) source) []
  | verbatim {content source : List Char} : content ≠ [] →
      ComesTo (.token (.verbatim content) source) [.text (String.ofList content)]
  | start {name : String} {a : Attributes} {source : List Char} :
      ComesTo (.token (.opening name a false) source) [.start name a]
  | empty {name : String} {a : Attributes} {source : List Char} :
      ComesTo (.token (.opening name a true) source) [.start name a, .finish name]
  | finish {name : String} {source : List Char} :
      ComesTo (.token (.closing name) source) [.finish name]

theorem comesTo_iff {segment : Segment} {es : List Event} :
    segment.ComesTo es ↔ segment.events = es := by
  have hblank : ∀ content, Text.allBlank content = true ↔ ∀ c ∈ content, Text.isBlank c = true :=
    fun content => List.all_eq_true
  constructor
  · intro h
    cases h with
    | blank h => exact if_pos ((hblank _).2 h)
    | data h hdecoded =>
      have hdata : Text.allBlank _ = false := List.all_eq_false.2 (by simpa using h)
      rw [Segment.events, dataEvents, hdata, Entity.decodes_iff.1 hdecoded]
      rfl
    | verbatim hne => exact if_neg hne
    | _ => rfl
  · rintro rfl
    rcases segment with content | ⟨_ | (_ | ⟨c, content⟩) | ⟨name, a, _ | _⟩ | name, source⟩
    · rw [Segment.events, dataEvents]
      split
      · next h => exact .blank ((hblank _).1 h)
      · next h => exact .data (by simpa [hblank] using h) (Entity.decodes_iff.2 rfl)
    · exact .aside
    · exact .nothing
    · exact .verbatim (List.cons_ne_nil _ _)
    · exact .start
    · exact .empty
    · exact .finish

/-- What gaps and tokens come to, one after another. -/
theorem exists_forall₂_comesTo_iff {es : List Event} :
    (∃ pieces, List.Forall₂ ComesTo segments pieces ∧ pieces.flatten = es) ↔
      segments.flatMap events = es := by
  have hpieces : ∀ pieces, List.Forall₂ ComesTo segments pieces ↔ segments.map events = pieces := by
    intro pieces
    have hsame : (ComesTo : Segment → List Event → Prop) = fun segment es => segment.events = es :=
      funext₂ fun _ _ => propext comesTo_iff
    rw [hsame, ← List.forall₂_map_left_iff (f := events), List.forall₂_eq_eq_eq]
  simp only [hpieces, exists_eq_left', List.flatMap_def]

/-- Segments that come to the same text, the same tokens and the same events. -/
structure Agree (xs ys : List Segment) : Prop where
  source : xs.flatMap source = ys.flatMap source
  tokens : xs.filterMap token? = ys.filterMap token?
  events : xs.flatMap events = ys.flatMap events

theorem Agree.behind {xs ys : List Segment} (h : Agree xs ys) (front : List Segment) :
    Agree (front ++ xs) (front ++ ys) where
  source := by rw [List.flatMap_append, List.flatMap_append, h.source]
  tokens := by rw [List.filterMap_append, List.filterMap_append, h.tokens]
  events := by rw [List.flatMap_append, List.flatMap_append, h.events]

/-- An empty gap can be left out. -/
theorem agree_data (content : List Char) (rest : List Segment) :
    Agree (data content ++ rest) (.gap content :: rest) := by
  cases content with
  | nil => exact ⟨rfl, rfl, rfl⟩
  | cons c content => exact ⟨rfl, rfl, rfl⟩

/-- What is cut off a text can be told to be gaps and tokens in turn, with an empty gap wherever
there is none. -/
theorem exists_alternating :
    ∀ segments, Spaced segments → (∀ s ∈ segments, Plain s) →
      ∃ turns, Alternating turns ∧ Agree turns segments
  | [], _, _ => ⟨[.gap []], .gap List.not_mem_nil, rfl, rfl, rfl⟩
  | [.gap content], _, hplain =>
    ⟨[.gap content], .gap (hplain _ (List.mem_singleton_self _)), rfl, rfl, rfl⟩
  | .gap content :: .gap more :: rest, hspaced, _ => absurd rfl (hspaced.2.1 more rest)
  | .gap content :: .token t written :: rest, hspaced, hplain => by
    obtain ⟨turns, hturns, hagree⟩ := exists_alternating rest hspaced.2.2
      fun s hs => hplain s (List.mem_cons_of_mem _ (List.mem_cons_of_mem _ hs))
    have hcontent : '<' ∉ content := hplain (.gap content) (List.mem_cons_self ..)
    have hwritten : Written t written := plain_token_iff.1 (hplain _ (by simp))
    exact ⟨_, .token hcontent hwritten hturns, hagree.behind [.gap content, .token t written]⟩
  | .token t written :: rest, hspaced, hplain => by
    obtain ⟨turns, hturns, hagree⟩ := exists_alternating rest hspaced
      fun s hs => hplain s (List.mem_cons_of_mem _ hs)
    have hwritten : Written t written := plain_token_iff.1 (hplain _ (List.mem_cons_self ..))
    obtain ⟨hsource, htokens, hevents⟩ := hagree.behind [.token t written]
    exact ⟨_, .token List.not_mem_nil hwritten hturns, hsource, htokens, hevents⟩

/-- Gaps and tokens in turn are what is cut off their text, but for the gaps that are empty. -/
theorem Alternating.exists_cut {turns : List Segment} (h : Alternating turns) :
    ∃ segments, Spaced segments ∧ (∀ s ∈ segments, Plain s) ∧ Agree segments turns := by
  have hdata : ∀ {content : List Char}, '<' ∉ content → ∀ s ∈ data content, Plain s := by
    intro content hcontent s hs
    cases content with
    | nil => cases hs
    | cons c content =>
      rw [List.mem_singleton.1 hs]
      exact hcontent
  induction h with
  | @gap content hcontent =>
    refine ⟨data content, ?_, hdata hcontent, ?_⟩
    · cases content with
      | nil => trivial
      | cons c content => exact ⟨List.cons_ne_nil _ _, fun _ _ h => (nomatch h), trivial⟩
    · simpa using agree_data content []
  | @token content written t rest hcontent hwritten _ ih =>
    obtain ⟨segments, hspaced, hplain, hagree⟩ := ih
    refine ⟨data content ++ .token t written :: segments, ?_, ?_, ?_⟩
    · cases content with
      | nil => exact hspaced
      | cons c content => exact ⟨List.cons_ne_nil _ _, fun _ _ h => (nomatch h), hspaced⟩
    · intro s hs
      rcases List.mem_append.1 hs with hs | hs
      · exact hdata hcontent s hs
      · rcases List.mem_cons.1 hs with rfl | hs
        · exact plain_token_iff.2 hwritten
        · exact hplain s hs
    · have hfront := agree_data content (.token t written :: rest)
      have hbehind := hagree.behind (data content ++ [.token t written])
      simp only [List.append_assoc, List.singleton_append] at hbehind
      exact ⟨hbehind.source.trans hfront.source, hbehind.tokens.trans hfront.tokens,
        hbehind.events.trans hfront.events⟩

end Segment

namespace Document
open Segment

/-- The texts that are accepted, and what they come to. A text is accepted if and only if it
can be written as gaps and tokens in turn whose tags match; its events are then those that the
gaps and the tokens come to, one after another. -/
theorem events_eq_ok_iff_alternating {text : String} {es : List Event} :
    events text = .ok es ↔
      ∃ turns, Alternating turns ∧ turns.flatMap source = text.toList ∧
        Token.Balanced (turns.filterMap token?) ∧
        ∃ pieces, List.Forall₂ ComesTo turns pieces ∧ pieces.flatten = es := by
  simp only [exists_forall₂_comesTo_iff]
  rw [events_eq_ok_iff]
  constructor
  · rintro ⟨hnested, hevents⟩
    have hplain := plain_of_nested hnested
    obtain ⟨turns, hturns, hagree⟩ := exists_alternating _ (spaced_ofText _) hplain
    have hcloses := (nested_iff_closes fun content hmem => hplain _ hmem).1 hnested
    refine ⟨turns, hturns, hagree.source.trans (flatMap_source_ofText _), ?_,
      hagree.events.trans hevents⟩
    rw [hagree.tokens]
    exact hcloses
  · rintro ⟨turns, hturns, hsource, hbalanced, hevents⟩
    obtain ⟨segments, hspaced, hplain, hagree⟩ := hturns.exists_cut
    have hcut : ofText text.toList = segments := by
      rw [← hsource, ← hagree.source, ofText_flatMap_source hplain hspaced]
    rw [hcut]
    refine ⟨(nested_iff_closes fun content hmem => hplain _ hmem).2 ?_, hagree.events.trans hevents⟩
    rw [hagree.tokens]
    exact hbalanced

/-- References are decoded in data and in values, and not in what is taken as it is. -/
example : events "<a b='&quot;&#66;'>x &lt; &amp;lt;<![CDATA[&lt;]]></a>" =
    .ok [.start "a" [("b", "\"B")], .text "x < &lt;", .text "&lt;", .finish "a"] := by
  decide +kernel

end Document

end SqlMaps.Markup
