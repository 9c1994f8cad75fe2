import SqlMaps.Proofs.Markup.Documents

/-! Where a text that is no markup is at fault.

Reading goes from segment to segment. What has been read is `Whole` but for the elements that are
open, and where each of these begins is told by what has been read (`Leaves`). So a fault has its
place in the text itself (`Faulty`): every place that is reported is a `<`, and it is the one that
the kind of the fault speaks of (`place_of_events_error`). -/
namespace SqlMaps

namespace Text

theorem byteLength_eq_utf8ByteSize (s : List Char) :
    byteLength s = (String.ofList s).utf8ByteSize := by
  induction s with
  | nil => rfl
  | cons c s ih => rw [byteLength, ih, String.ofList_cons, String.utf8ByteSize_append,
      String.utf8ByteSize_singleton]

end Text

namespace Markup

namespace Token

theorem Balanced.append {xs ys : List Token} (hxs : Balanced xs) (hys : Balanced ys) :
    Balanced (xs ++ ys) := by
  induction hxs with
  | nil => exact hys
  | aside _ ih => exact .aside ih
  | verbatim _ ih => exact .verbatim ih
  | empty _ ih => exact .empty ih
  | element hinner _ _ ih => simpa using Balanced.element hinner ih

end Token

namespace Segment

section
variable {past more : List Segment} {opened : List OpenElement}

/-! ### What has been read -/

/-- No `<` is left over in the gaps, and the tags match. -/
structure Whole (segments : List Segment) : Prop where
  data : ∀ content, .gap content ∈ segments → '<' ∉ content
  tags : Token.Balanced (segments.filterMap token?)

theorem whole_nil : Whole [] :=
  ⟨fun _ h => (nomatch h), .nil⟩

theorem Whole.append (h : Whole past) (h' : Whole more) : Whole (past ++ more) where
  data content hmem := (List.mem_append.1 hmem).elim (h.data content) (h'.data content)
  tags := by
    rw [List.filterMap_append]
    exact h.tags.append h'.tags

theorem whole_gap {content : List Char} (h : '<' ∉ content) : Whole [.gap content] :=
  ⟨fun _ hmem => by cases List.mem_singleton.1 hmem; exact h, .nil⟩

theorem whole_token {t : Token} (written : List Char) (h : Token.Balanced [t]) :
    Whole [.token t written] :=
  ⟨fun _ hmem => (nomatch List.mem_singleton.1 hmem), h⟩

/-- An element with what stands in it. -/
theorem Whole.element {inner : List Segment} (h : Whole inner) (name : String) (a : Attributes)
    (start finish : List Char) :
    Whole (.token (.opening name a false) start :: (inner ++ [.token (.closing name) finish])) where
  data content hmem := h.data content (by simpa using hmem)
  tags := by simpa using Token.Balanced.element h.tags .nil

/-- The elements that are open behind the segments, the innermost first. Each has the name and
the place of its start tag, and what stands behind that is whole but for the elements further in. -/
def Leaves : List OpenElement → List Segment → Prop
  | [], past => Whole past
  | element :: opened, past => ∃ outer a written inner,
    past = outer ++ .token (.opening element.name a false) written :: inner ∧
      element.offset = Text.byteLength (outer.flatMap source) ∧ Leaves opened outer ∧ Whole inner

/-- What is whole for itself leaves the same elements open. -/
theorem Leaves.append (h : Leaves opened past) (hmore : Whole more) :
    Leaves opened (past ++ more) := by
  cases opened with
  | nil => exact Whole.append h hmore
  | cons element opened =>
    obtain ⟨outer, a, written, inner, rfl, hoffset, hopened, hinner⟩ := h
    exact ⟨outer, a, written, inner ++ more, by simp, hoffset, hopened, hinner.append hmore⟩

/-- A start tag opens an element where it stands. -/
theorem Leaves.opening (h : Leaves opened past) (name : String) (a : Attributes)
    (written : List Char) :
    Leaves (⟨name, Text.byteLength (past.flatMap source)⟩ :: opened)
      (past ++ [.token (.opening name a false) written]) :=
  ⟨past, a, written, [], rfl, rfl, h, whole_nil⟩

/-- An end tag closes the innermost element. -/
theorem Leaves.closing {element : OpenElement} (h : Leaves (element :: opened) past)
    (written : List Char) : Leaves opened (past ++ [.token (.closing element.name) written]) := by
  obtain ⟨outer, a, start, inner, rfl, -, hopened, hinner⟩ := h
  simpa using hopened.append (hinner.element element.name a start written)

end

/-! ### Faults -/

/-- What is wrong with a text that is cut into the segments, at a `<` behind a part of it. What
stands in front can be read, so nothing else is wrong there. -/
inductive Faulty (segments : List Segment) : (before : List Char) → Fault → Prop where
  /-- The first `<` of a gap; it begins no token. -/
  | unrecognized {past rest : List Segment} {opened : List OpenElement}
      {front behind : List Char} :
      segments = past ++ .gap (front ++ '<' :: behind) :: rest → Leaves opened past →
      '<' ∉ front → Token.scan? (behind ++ rest.flatMap source) = none →
      Faulty segments (past.flatMap source ++ front) .unrecognized
  /-- An end tag where no element is open. -/
  | unexpectedEnd {past rest : List Segment} {name : String} {written : List Char} :
      segments = past ++ .token (.closing name) written :: rest → Leaves [] past →
      Faulty segments (past.flatMap source) (.unexpectedEnd name)
  /-- An end tag inside an element of another name. -/
  | mismatched {past rest : List Segment} {element : OpenElement} {opened : List OpenElement}
      {found : String} {written : List Char} :
      segments = past ++ .token (.closing found) written :: rest →
      Leaves (element :: opened) past → element.name ≠ found →
      Faulty segments (past.flatMap source) (.mismatched element.name found)
  /-- The start tag of an element that is still open in the end, and is the innermost such. -/
  | neverClosed {past rest : List Segment} {opened : List OpenElement} {name : String}
      {a : Attributes} {written : List Char} :
      segments = past ++ .token (.opening name a false) written :: rest → Leaves opened past →
      Whole rest → Faulty segments (past.flatMap source) (.neverClosed name)

/-- A `<` that is left over in a gap begins no token. -/
theorem scan?_of_gap {past rest : List Segment} {s front behind : List Char}
    (h : ofText s = past ++ .gap (front ++ '<' :: behind) :: rest) :
    Token.scan? (behind ++ rest.flatMap source) = none := by
  -- a character put in front of segments is in their first gap, or is one
  have hcons : ∀ {c : Char} {segments past : List Segment} {content : List Char},
      consChar c segments = past ++ .gap content :: rest →
      (∃ content', past = [] ∧ content = c :: content' ∧
        ((content' = [] ∧ segments = rest) ∨ segments = .gap content' :: rest)) ∨
      ∃ past', segments = past' ++ .gap content :: rest := by
    intro c segments past content hsegments
    unfold consChar at hsegments
    cases past with
    | nil =>
      split at hsegments
      · obtain ⟨hgap, rfl⟩ := List.cons.inj hsegments
        cases hgap
        exact .inl ⟨_, rfl, rfl, .inr rfl⟩
      · obtain ⟨hgap, rfl⟩ := List.cons.inj hsegments
        cases hgap
        exact .inl ⟨_, rfl, rfl, .inl ⟨rfl, rfl⟩⟩
    | cons first past =>
      split at hsegments
      · rename_i content' _
        obtain ⟨-, rfl⟩ := List.cons.inj hsegments
        exact .inr ⟨.gap content' :: past, rfl⟩
      · obtain ⟨-, rfl⟩ := List.cons.inj hsegments
        exact .inr ⟨past, rfl⟩
  fun_induction ofText s generalizing past front with
  | case1 => simp at h
  | case2 _ t after _ ih =>
    cases past with
    | nil => simp at h
    | cons first past => exact ih (List.cons.inj h).2
  | case3 after hscan ih =>
    obtain ⟨content, -, hcontent, hrest⟩ | ⟨past', hpast⟩ := hcons h
    · cases front with
      | nil =>
        -- the `<` itself, which begins no token
        obtain ⟨-, rfl⟩ := List.cons.inj hcontent
        have hsource : behind ++ rest.flatMap source = (ofText after).flatMap source := by
          rcases hrest with ⟨rfl, hrest⟩ | hrest
          · rw [hrest, List.nil_append]
          · rw [hrest]
            rfl
        rw [hsource, flatMap_source_ofText, hscan]
      | cons c front =>
        obtain ⟨-, rfl⟩ := List.cons.inj hcontent
        rcases hrest with ⟨hnil, -⟩ | hrest
        · simp at hnil
        · have hcut : ofText after = [] ++ .gap (front ++ '<' :: behind) :: rest := hrest
          exact ih hcut
    · exact ih hpast
  | case4 c after hc ih =>
    obtain ⟨content, -, hcontent, hrest⟩ | ⟨past', hpast⟩ := hcons h
    · cases front with
      | nil => exact absurd (List.cons.inj hcontent).1.symm hc
      | cons c front =>
        obtain ⟨-, rfl⟩ := List.cons.inj hcontent
        rcases hrest with ⟨hnil, -⟩ | hrest
        · simp at hnil
        · have hcut : ofText after = [] ++ .gap (front ++ '<' :: behind) :: rest := hrest
          exact ih hcut
    · exact ih hpast

/-- Where something is at fault, the text goes on with a `<`. -/
theorem Faulty.exists_behind {s before : List Char} {fault : Fault}
    (h : Faulty (ofText s) before fault) : ∃ behind, s = before ++ '<' :: behind := by
  have htoken : ∀ {past rest : List Segment} {t : Token} {written : List Char},
      ofText s = past ++ .token t written :: rest →
      ∃ behind, s = past.flatMap source ++ '<' :: behind := by
    intro past rest t written hcut
    have hplain : Plain (.token t written) := plain_of_token (s := s) (by simp [hcut])
    obtain ⟨body, rfl, -⟩ := hplain
    exact ⟨body ++ rest.flatMap source, by
      rw [← flatMap_source_ofText s, hcut, List.flatMap_append]; rfl⟩
  cases h with
  | @unrecognized past rest opened front behind hcut hpast hfront hscan =>
    exact ⟨behind ++ rest.flatMap source, by
      rw [← flatMap_source_ofText s, hcut]; simp [source]⟩
  | unexpectedEnd hcut => exact htoken hcut
  | mismatched hcut => exact htoken hcut
  | neverClosed hcut => exact htoken hcut

end Segment

namespace Document
open Segment
variable {past rest : List Segment} {opened : List OpenElement}

/-- A segment that is read goes on from the elements that are open in front of it. -/
theorem leaves_of_segmentEvents {segment : Segment} {es : List Event} {opened' : List OpenElement}
    (hpast : Leaves opened past)
    (h : segmentEvents (Text.byteLength (past.flatMap source)) opened segment =
      .ok (es, opened')) : Leaves opened' (past ++ [segment]) := by
  cases segment with
  | gap content =>
    rw [segmentEvents] at h
    cases hgap : gapEvents (Text.byteLength (past.flatMap source)) content with
    | error e =>
      rw [hgap] at h
      cases h
    | ok events =>
      rw [hgap] at h
      cases h
      exact hpast.append (whole_gap (gapEvents_eq_ok_iff.1 hgap).1)
  | token t written =>
    rcases t with _ | (_ | ⟨c, content⟩) | ⟨name, a, _ | _⟩ | name
    · cases h
      exact hpast.append (whole_token _ (.aside .nil))
    · cases h
      exact hpast.append (whole_token _ (.verbatim .nil))
    · cases h
      exact hpast.append (whole_token _ (.verbatim .nil))
    · cases h
      exact hpast.opening name a written
    · cases h
      exact hpast.append (whole_token _ (.empty .nil))
    · cases opened with
      | nil => cases h
      | cons element opened =>
        rw [segmentEvents, tokenEvents] at h
        split at h
        · rename_i hname
          cases h
          exact hname ▸ hpast.closing written
        · cases h

/-- A segment that is refused is at fault at a `<`. -/
theorem faulty_of_segmentEvents {segment : Segment} {e : Error} {s : List Char}
    (hcut : ofText s = past ++ segment :: rest) (hpast : Leaves opened past)
    (h : segmentEvents (Text.byteLength (past.flatMap source)) opened segment = .error e) :
    ∃ before fault, Faulty (ofText s) before fault ∧
      e = .malformed (Text.byteLength before) fault := by
  cases segment with
  | gap content =>
    rw [segmentEvents, gapEvents] at h
    split at h
    · cases h
    · split at h
      · rename_i front behind hsplit
        cases h
        obtain ⟨rfl, hfront⟩ := Text.splitAtChar_eq_some_iff.1 hsplit
        refine ⟨_, _, .unrecognized hcut hpast hfront (scan?_of_gap hcut), ?_⟩
        rw [Text.byteLength_append]
      · cases h
  | token t written =>
    rcases t with _ | (_ | ⟨c, content⟩) | ⟨name, a, _ | _⟩ | name
    · cases h
    · cases h
    · cases h
    · cases h
    · cases h
    · cases opened with
      | nil =>
        cases h
        exact ⟨_, _, .unexpectedEnd hcut hpast, rfl⟩
      | cons element opened =>
        rw [segmentEvents, tokenEvents] at h
        split at h
        · cases h
        · rename_i hname
          cases h
          exact ⟨_, _, .mismatched hcut hpast hname, rfl⟩

/-- What cannot be read from some segment on is at fault there or further on. -/
theorem faulty_of_eventsFrom {e : Error} {s : List Char} (hcut : ofText s = past ++ rest)
    (hpast : Leaves opened past)
    (h : eventsFrom (Text.byteLength (past.flatMap source)) opened rest = .error e) :
    ∃ before fault, Faulty (ofText s) before fault ∧
      e = .malformed (Text.byteLength before) fault := by
  -- on the segments to come; `Leaves` says what the ones behind have left open
  induction rest generalizing past opened with
  | nil =>
    cases opened with
    | nil => cases h
    | cons element opened =>
      cases h
      obtain ⟨outer, a, written, inner, hopening, hoffset, hopened, hinner⟩ := hpast
      rw [List.append_nil, hopening] at hcut
      exact ⟨_, _, .neverClosed hcut hopened hinner, by rw [hoffset]⟩
  | cons segment rest ih =>
    rw [eventsFrom_cons] at h
    cases hsegment : segmentEvents (Text.byteLength (past.flatMap source)) opened segment with
    | error e' =>
      rw [hsegment] at h
      cases h
      exact faulty_of_segmentEvents hcut hpast hsegment
    | ok read =>
      obtain ⟨events, opened'⟩ := read
      have hlength : Text.byteLength (past.flatMap source) + Text.byteLength segment.source =
          Text.byteLength ((past ++ [segment]).flatMap source) := by
        simp [Text.byteLength_append]
      rw [hsegment] at h
      cases hrest : eventsFrom (Text.byteLength (past.flatMap source) +
          Text.byteLength segment.source) opened' rest with
      | ok more => simp [hrest, bind, Except.bind, pure, Except.pure] at h
      | error e' =>
        simp only [hrest, bind, Except.bind, Except.error.injEq] at h
        rw [hlength] at hrest
        refine ih (by rw [hcut]; simp) (leaves_of_segmentEvents hpast hsegment) ?_
        rw [hrest, h]

/-- A text that is refused is malformed at a place of its own: the place comes before the end,
between two characters, and what stands there is a `<`. It is the first one left over in its gap,
or it begins the end tag that closes nothing or the wrong element, or the start tag of the
innermost element that is left open. -/
theorem place_of_events_error {text : String} {e : Error} (h : events text = .error e) :
    ∃ before behind fault, e = .malformed (Text.byteLength before) fault ∧
      text.toList = before ++ '<' :: behind ∧ Faulty (ofText text.toList) before fault ∧
      Text.byteLength before < text.utf8ByteSize ∧
      (String.Pos.Raw.mk (Text.byteLength before)).IsValid text := by
  have hnil : Leaves [] [] := whole_nil
  obtain ⟨before, fault, hfaulty, rfl⟩ := faulty_of_eventsFrom rfl hnil h
  obtain ⟨behind, htext⟩ := hfaulty.exists_behind
  have hsplit : text = String.ofList before ++ String.ofList ('<' :: behind) := by
    rw [← String.ofList_append, ← htext, String.ofList_toList]
  refine ⟨before, behind, fault, rfl, htext, hfaulty, ?_, ?_⟩
  · have hbehind := Char.utf8Size_pos '<'
    rw [hsplit, String.utf8ByteSize_append, ← Text.byteLength_eq_utf8ByteSize,
      ← Text.byteLength_eq_utf8ByteSize, Text.byteLength]
    omega
  · rw [Text.byteLength_eq_utf8ByteSize]
    exact String.Pos.Raw.isValid_iff_exists_append.2 ⟨_, _, hsplit, rfl⟩

theorem place_of_accents :
    ∃ before behind fault, Error.malformed 5 (.neverClosed "b") =
      .malformed (Text.byteLength before) fault ∧
      "éé\n<b>é".toList = before ++ '<' :: behind ∧
      Faulty (ofText "éé\n<b>é".toList) before fault ∧
      Text.byteLength before < "éé\n<b>é".utf8ByteSize ∧
      (String.Pos.Raw.mk (Text.byteLength before)).IsValid "éé\n<b>é" :=
  place_of_events_error (by decide +kernel)

end Document

end Markup

end SqlMaps
