import Mathlib.Tactic.ByContra
import SqlMaps.Proofs.Markup.Cutting

/-! Which texts are markup, and what a comment in one comes to.

A text is accepted just when its elements are nested well and no `<` is left over in its
character data, and then its events are those of its segments, one after another
(`events_eq_ok_iff`). A comment put into character data leaves the text accepted; the
data before and behind it is read as two texts, each of them left out where it is all
white space (`events_withComment`). -/
namespace SqlMaps.Markup

namespace Segment

/-- The events that character data comes to. -/
def dataEvents (content : List Char) : List Event :=
  if Text.allBlank content then [] else [.text (String.ofList (Entity.decode content))]

/-- The events that the segment comes to where it may stand. -/
def events : Segment → List Event
  | .gap content => dataEvents content
  | .token .aside _ => []
  | .token (.verbatim content) _ => if content = [] then [] else [.text (String.ofList content)]
  | .token (.opening name attributes isEmpty) _ =>
    .start name attributes :: if isEmpty then [.finish name] else []
  | .token (.closing name) _ => [.finish name]

/-- The names of the elements that are open behind the segment, the innermost first, if it
may stand inside the ones that are open before it. -/
def inside? (names : List String) : Segment → Option (List String)
  | .gap content => if '<' ∈ content then none else some names
  | .token (.opening name _ false) _ => some (name :: names)
  | .token (.closing name) _ =>
    match names with
    | [] => none
    | inner :: outer => if inner = name then some outer else none
  | .token .. => some names

/-- Every segment may stand where it does, and in the end no element is open. -/
def Nested : List String → List Segment → Prop
  | names, [] => names = []
  | names, segment :: rest => ∃ names', segment.inside? names = some names' ∧ Nested names' rest

end Segment

namespace Document
open Segment

theorem not_mem_of_allBlank {content : List Char} (h : Text.allBlank content = true) :
    '<' ∉ content := by
  intro hmem
  exact absurd (List.all_eq_true.1 h _ hmem) (by decide)

theorem gapEvents_eq_ok_iff {offset : Nat} {content : List Char} {es : List Event} :
    gapEvents offset content = .ok es ↔ '<' ∉ content ∧ dataEvents content = es := by
  rw [gapEvents, dataEvents]
  split
  · rename_i hblank
    simp [not_mem_of_allBlank hblank]
  · rw [← Text.splitAtChar_eq_none_iff]
    cases Text.splitAtChar '<' content <;> simp

/-- The events of one segment at an offset, and the elements open after it. -/
def segmentEvents (offset : Nat) (opened : List OpenElement) :
    Segment → Except Error (List Event × List OpenElement)
  | .gap content => do pure (← gapEvents offset content, opened)
  | .token t _ => tokenEvents offset opened t

theorem eventsFrom_cons (offset : Nat) (opened : List OpenElement) (segment : Segment)
    (rest : List Segment) :
    eventsFrom offset opened (segment :: rest) = (do
      let (events, opened) ← segmentEvents offset opened segment
      return events ++ (← eventsFrom (offset + Text.byteLength segment.source) opened rest)) := by
  cases segment with
  | gap content =>
    rw [eventsFrom, segmentEvents]
    cases gapEvents offset content <;> rfl
  | token t source => rfl

/-- One segment is read if and only if it may stand where it does. -/
theorem segment_read (offset : Nat) (opened : List OpenElement) (segment : Segment) :
    match segmentEvents offset opened segment with
    | .ok (events, opened') =>
      segment.inside? (opened.map OpenElement.name) = some (opened'.map OpenElement.name) ∧
        segment.events = events
    | .error _ => segment.inside? (opened.map OpenElement.name) = none := by
  cases segment with
  | gap content =>
    cases hgap : gapEvents offset content with
    | error e =>
      have hmem : '<' ∈ content := by
        by_contra hmem
        have hok := (@gapEvents_eq_ok_iff offset _ _).2 ⟨hmem, rfl⟩
        rw [hgap] at hok
        cases hok
      simp [segmentEvents, hgap, inside?, hmem, bind, Except.bind]
    | ok events =>
      obtain ⟨hmem, rfl⟩ := gapEvents_eq_ok_iff.1 hgap
      simp [segmentEvents, hgap, inside?, hmem, Segment.events, bind, Except.bind, pure, Except.pure]
  | token t source =>
    rcases t with _ | (_ | ⟨c, content⟩) | ⟨name, attributes, _ | _⟩ | name
    · exact ⟨rfl, rfl⟩
    · exact ⟨rfl, rfl⟩
    · exact ⟨rfl, rfl⟩
    · exact ⟨rfl, rfl⟩
    · exact ⟨rfl, rfl⟩
    · cases opened with
      | nil => rfl
      | cons element opened =>
        by_cases h : element.name = name <;>
          simp [segmentEvents, tokenEvents, inside?, h, Segment.events]

/-- The events of the segments are read if and only if they are nested. -/
theorem eventsFrom_eq_ok_iff {offset : Nat} {opened : List OpenElement} {segments : List Segment}
    {es : List Event} :
    eventsFrom offset opened segments = .ok es ↔
      Nested (opened.map OpenElement.name) segments ∧ segments.flatMap Segment.events = es := by
  induction segments generalizing offset opened es with
  | nil => cases opened <;> simp [eventsFrom, Nested]
  | cons segment rest ih =>
    have hsegment := segment_read offset opened segment
    rw [eventsFrom_cons]
    split at hsegment
    · rename_i events opened' hread
      obtain ⟨hinside, rfl⟩ := hsegment
      have hnested : Nested (opened.map OpenElement.name) (segment :: rest) ↔
          Nested (opened'.map OpenElement.name) rest := by simp [Nested, hinside]
      rw [hread, hnested, List.flatMap_cons]
      cases hmore : eventsFrom (offset + Text.byteLength segment.source) opened' rest with
      | error e =>
        have hnot : ¬ Nested (opened'.map OpenElement.name) rest := fun hn => by
          rw [(@ih (offset + Text.byteLength segment.source) _ _).2 ⟨hn, rfl⟩] at hmore
          cases hmore
        simp [hnot, hmore, bind, Except.bind]
      | ok more =>
        obtain ⟨hn, rfl⟩ := ih.1 hmore
        simp [hn, hmore, bind, Except.bind, pure, Except.pure]
    · rename_i hread
      rw [hread]
      simp [Nested, hsegment, bind, Except.bind]

/-- A text is accepted if and only if its segments are nested; its events are theirs. -/
theorem events_eq_ok_iff {text : String} {es : List Event} :
    events text = .ok es ↔
      Nested [] (ofText text.toList) ∧ (ofText text.toList).flatMap Segment.events = es :=
  eventsFrom_eq_ok_iff

end Document

/-! ### References -/

namespace Entity

/-- A reference begins in the one text and ends in the other. -/
def Across (x y : List Char) : Prop :=
  ∃ before v w after, x = before ++ '&' :: v ∧ y = w ++ ';' :: after ∧ ';' ∉ v ∧ ';' ∉ w ∧
    (named? (v ++ w)).isSome

theorem Across.append_left {x y : List Char} (h : Across x y) (front : List Char) :
    Across (front ++ x) y := by
  obtain ⟨before, v, w, after, rfl, rfl, hv, hw, hnamed⟩ := h
  exact ⟨front ++ before, v, w, after, (List.append_assoc ..).symm, rfl, hv, hw, hnamed⟩

/-- A text is decoded piece by piece, if no reference is cut. -/
theorem decode_append {x y : List Char} (h : ¬ Across x y) :
    decode (x ++ y) = decode x ++ decode y := by
  fun_induction decode x with
  | case1 => rfl
  | case2 rest d after href ih =>
    have hmem : ';' ∈ rest := by
      by_contra hmem
      rw [reference?_eq_none hmem] at href
      cases href
    obtain ⟨v, after', rfl, hv⟩ := List.eq_append_cons_of_mem hmem
    rw [reference?_append hv] at href
    obtain ⟨c, hc, he⟩ := Option.map_eq_some_iff.1 href
    simp only [Prod.mk.injEq] at he
    obtain ⟨rfl, rfl⟩ := he
    have hwhole : reference? (v ++ ';' :: (after' ++ y)) = some (c, after' ++ y) := by
      rw [reference?_append hv, hc]
      rfl
    have hrest : ¬ Across after' y := fun hin =>
      h (by simpa using hin.append_left ('&' :: v ++ [';']))
    rw [List.cons_append, List.append_assoc, List.cons_append, decode_of_reference hwhole, ih hrest]
    rfl
  | case3 rest href ih =>
    have hrest : ¬ Across rest y := fun hin => h (hin.append_left ['&'])
    have hwhole : reference? (rest ++ y) = none := by
      by_cases hmem : ';' ∈ rest
      · obtain ⟨v, after, rfl, hv⟩ := List.eq_append_cons_of_mem hmem
        rw [reference?_append hv, Option.map_eq_none_iff] at href
        rw [List.append_assoc, List.cons_append, reference?_append hv, href]
        rfl
      · by_cases hend : ';' ∈ y
        · obtain ⟨w, after, rfl, hw⟩ := List.eq_append_cons_of_mem hend
          have hnamed : named? (rest ++ w) = none := by
            by_contra hnamed
            exact h ⟨[], rest, w, after, rfl, rfl, hmem, hw, Option.isSome_iff_ne_none.2 hnamed⟩
          rw [← List.append_assoc, reference?_append (by simp [hmem, hw]), hnamed]
          rfl
        · exact reference?_eq_none (by simp [hmem, hend])
    rw [List.cons_append, decode_of_none hwhole, ih hrest]
    rfl
  | case4 c rest hc ih =>
    have hrest : ¬ Across rest y := fun hin => h (hin.append_left [c])
    rw [List.cons_append, decode, if_neg hc, ih hrest]
    rfl

/-- No character is decoded to nothing. -/
theorem decode_ne_nil {s : List Char} (h : s ≠ []) : decode s ≠ [] := by
  fun_cases decode s <;> simp_all

/-- A text with no reference in it stands for itself. -/
theorem decode_eq_self {s : List Char} (h : '&' ∉ s) : decode s = s := by
  induction s with
  | nil => rw [decode]
  | cons c s ih =>
    simp only [List.mem_cons, not_or] at h
    rw [decode, if_neg (Ne.symm h.1), ih h.2]

end Entity

/-! ### Comments in character data -/

namespace Segment

/-- Character data as a segment; where there is none, no segment. -/
def data (content : List Char) : List Segment :=
  if content = [] then [] else [.gap content]

/-- A comment around the text. -/
def comment (text : List Char) : Segment :=
  .token .aside ('<' :: ("!--".toList ++ text ++ "-->".toList))

/-- The text of a comment is what stands before the first `-->`, if no `--` is in it. -/
theorem splitAtWord_comment {text : List Char} (h : ¬ ['-', '-'] <:+: text) (rest : List Char) :
    Text.splitAtWord "-->".toList (text ++ ("-->".toList ++ rest)) = some (text, rest) := by
  induction text with
  | nil => rfl
  | cons c text ih =>
    have hfree : ¬ ['-', '-'] <:+: text := fun hin => h (hin.trans (List.suffix_cons _ _).isInfix)
    have hnone : Text.dropWord "-->".toList (c :: (text ++ ("-->".toList ++ rest))) = none := by
      rw [Option.eq_none_iff_forall_ne_some]
      intro after hafter
      have hword := Text.dropWord_eq_some_iff.1 hafter
      cases text with
      | nil => simp at hword
      | cons d text =>
        simp only [String.reduceToList, List.cons_append, List.cons.injEq] at hword
        obtain ⟨rfl, rfl, -⟩ := hword
        exact h ⟨[], text, rfl⟩
    rw [List.cons_append, Text.splitAtWord, hnone, ih hfree]
    rfl

/-- A comment is read as one, whatever comes behind it. -/
theorem plain_comment {text : List Char} (h : ¬ ['-', '-'] <:+: text) : (comment text).Plain := by
  have hup : Text.UpTo "-->".toList text := Text.upTo_of_splitAtWord (splitAtWord_comment h [])
  have hwritten := Token.Written.comment hup
  exact plain_token_iff.2 (by simpa using hwritten)

theorem not_mem_of_nested {names : List String} {segments : List Segment} {content : List Char}
    (h : Nested names segments) (hmem : .gap content ∈ segments) : '<' ∉ content := by
  induction segments generalizing names with
  | nil => cases hmem
  | cons segment rest ih =>
    obtain ⟨names', hinside, hrest⟩ := h
    rcases List.mem_cons.1 hmem with rfl | hmem
    · intro hlt
      simp [inside?, hlt] at hinside
    · exact ih hrest hmem

/-- What is nested can be cut where it was put together. -/
theorem plain_of_nested {names : List String} {s : List Char} (h : Nested names (ofText s)) :
    ∀ segment ∈ ofText s, segment.Plain := by
  intro segment hmem
  cases segment with
  | gap content => exact not_mem_of_nested h hmem
  | token t source => exact plain_of_token hmem

section
variable {before after : List Segment} {x y text : List Char}

/-- A comment may stand wherever character data may. -/
theorem nested_withComment {names : List String}
    (h : Nested names (before ++ .gap (x ++ y) :: after)) :
    Nested names (before ++ (data x ++ comment text :: (data y ++ after))) := by
  induction before generalizing names with
  | nil =>
    obtain ⟨names', hinside, hafter⟩ := h
    have hdata : '<' ∉ x ++ y := by
      intro hlt
      simp [inside?, hlt] at hinside
    simp only [inside?, hdata, if_false, Option.some.injEq] at hinside
    subst hinside
    simp only [List.mem_append, not_or] at hdata
    have hpiece : ∀ {z : List Char} {rest : List Segment}, '<' ∉ z → Nested names rest →
        Nested names (data z ++ rest) := by
      intro z rest hz hrest
      rw [data]
      split
      · exact hrest
      · exact ⟨names, by simp [inside?, hz], hrest⟩
    exact hpiece hdata.1 ⟨names, rfl, hpiece hdata.2 hafter⟩
  | cons segment before ih =>
    obtain ⟨names', hinside, hrest⟩ := h
    exact ⟨names', hinside, ih hrest⟩

/-- A comment parts the data before it from the data behind it. -/
theorem spaced_withComment (h : Spaced (before ++ .gap (x ++ y) :: after)) :
    Spaced (before ++ (data x ++ comment text :: (data y ++ after))) := by
  induction before with
  | nil =>
    obtain ⟨-, hafter, hspaced⟩ := h
    have hbehind : Spaced (data y ++ after) := by
      rw [data]
      split
      · exact hspaced
      · exact ⟨‹_›, hafter, hspaced⟩
    rw [List.nil_append, data]
    split
    · exact hbehind
    · exact ⟨‹_›, fun more tail he => by simp [comment] at he, hbehind⟩
  | cons segment before ih =>
    cases segment with
    | token t source => exact ih h
    | gap content =>
      obtain ⟨hne, hnext, hrest⟩ := h
      refine ⟨hne, fun more tail he => ?_, ih hrest⟩
      cases before with
      | nil => exact hnext _ _ rfl
      | cons next before => exact hnext more _ (by rw [(List.cons.inj he).1]; rfl)

theorem flatMap_events_data (content : List Char) :
    (data content).flatMap events = dataEvents content := by
  rw [data]
  split
  · rename_i hempty
    subst hempty
    rfl
  · simp [events]

theorem flatMap_source_data (content : List Char) : (data content).flatMap source = content := by
  rw [data]
  split
  · rename_i hempty
    subst hempty
    rfl
  · simp [source]

end

end Segment

namespace Document
open Segment

/-- An accepted text with a comment put into its character data is accepted. What stood there
as one text stands there as two, unless one of them is all white space. -/
theorem events_withComment {s : List Char} {es : List Event} (haccepted : events (String.ofList s) = .ok es)
    {before after : List Segment} {x y : List Char}
    (hdata : ofText s = before ++ .gap (x ++ y) :: after)
    {text : List Char} (htext : ¬ ['-', '-'] <:+: text) :
    es = before.flatMap Segment.events ++ dataEvents (x ++ y) ++ after.flatMap Segment.events ∧
    events (String.ofList
        (before.flatMap source ++ x ++ (comment text).source ++ y ++ after.flatMap source)) =
      .ok (before.flatMap Segment.events ++ (dataEvents x ++ dataEvents y) ++
        after.flatMap Segment.events) := by
  obtain ⟨hnested, hevents⟩ := events_eq_ok_iff.1 haccepted
  rw [String.toList_ofList] at hnested hevents
  have hplain := plain_of_nested hnested
  have hspaced := spaced_ofText s
  rw [hdata] at hnested hevents hplain hspaced
  refine ⟨by simp [← hevents, Segment.events], events_eq_ok_iff.2 ?_⟩
  have hcut : ofText (before.flatMap source ++ x ++ (comment text).source ++ y ++
      after.flatMap source) = before ++ (data x ++ comment text :: (data y ++ after)) := by
    have hsource : before.flatMap source ++ x ++ (comment text).source ++ y ++
        after.flatMap source =
          (before ++ (data x ++ comment text :: (data y ++ after))).flatMap source := by
      simp [flatMap_source_data]
    rw [hsource]
    refine ofText_flatMap_source (fun segment hmem => ?_) (spaced_withComment hspaced)
    have hlt : '<' ∉ x ++ y := not_mem_of_nested hnested (by simp)
    simp only [List.mem_append, not_or] at hlt
    have hpiece : ∀ {z : List Char}, '<' ∉ z → segment ∈ data z → segment.Plain := by
      intro z hz hin
      rw [data] at hin
      split at hin
      · cases hin
      · rw [List.mem_singleton.1 hin]
        exact hz
    simp only [List.mem_append, List.mem_cons] at hmem
    rcases hmem with hmem | hmem | rfl | hmem | hmem
    · exact hplain _ (by simp [hmem])
    · exact hpiece hlt.1 hmem
    · exact plain_comment htext
    · exact hpiece hlt.2 hmem
    · exact hplain _ (by simp [hmem])
  rw [String.toList_ofList, hcut]
  refine ⟨nested_withComment hnested, ?_⟩
  simp [flatMap_events_data, comment, Segment.events]

end Document

end SqlMaps.Markup
