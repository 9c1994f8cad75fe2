import SqlMaps.Markup.Token

/-! Documents: the events of a text of markup.

The text is cut into segments, tokens and the gaps between them, which loses nothing
(`flatMap_source_ofText`). Then the segments are read in order, with the elements
that are still open and the number of bytes passed. A gap of white space is nothing;
a gap with a `<` in it is a fault, and so is an end tag that closes no element or the
wrong one, and an element that is never closed. -/
namespace SqlMaps.Markup

/-- A piece of a text: character data between tokens, or a token as it was written. -/
inductive Segment where
  | gap (content : List Char)
  | token (token : Token) (source : List Char)
  deriving DecidableEq

namespace Segment

/-- The text of the segment. -/
def source : Segment → List Char
  | .gap content => content
  | .token _ source => source

/-- Puts a character of data in front. -/
def consChar (c : Char) : List Segment → List Segment
  | .gap content :: rest => .gap (c :: content) :: rest
  | segments => .gap [c] :: segments

/-- Cuts a text into its tokens and the gaps between them. -/
def ofText : List Char → List Segment
  | [] => []
  | c :: rest =>
    if c = '<' then
      match _h : Token.scan? rest with
      | some (t, after) =>
        .token t (c :: rest.take (rest.length - after.length)) :: ofText after
      | none => consChar c (ofText rest)
    else consChar c (ofText rest)
termination_by s => s.length
decreasing_by
  · have := (Token.scan?_suffix ‹_›).length_le
    simp only [List.length_cons]
    omega
  · simp
  · simp

end Segment

/-- An element that is still open: its name, and where its start tag stands. -/
structure OpenElement where
  name : String
  offset : Nat
  deriving DecidableEq

namespace Document

/-- The events of a gap at an offset: a text, or nothing if it is all white space. -/
def gapEvents (offset : Nat) (content : List Char) : Except Error (List Event) :=
  if Text.allBlank content then .ok []
  else
    match Text.splitAtChar '<' content with
    | some (before, _) => .error (.malformed (offset + Text.byteLength before) .unrecognized)
    | none => .ok [.text (String.ofList (Entity.decode content))]

/-- The events of a token at an offset, and the elements open after it. -/
def tokenEvents (offset : Nat) (opened : List OpenElement) :
    Token → Except Error (List Event × List OpenElement)
  | .aside => .ok ([], opened)
  | .verbatim [] => .ok ([], opened)
  | .verbatim content => .ok ([.text (String.ofList content)], opened)
  | .opening name attributes true => .ok ([.start name attributes, .finish name], opened)
  | .opening name attributes false => .ok ([.start name attributes], ⟨name, offset⟩ :: opened)
  | .closing name =>
    match opened with
    | [] => .error (.malformed offset (.unexpectedEnd name))
    | element :: opened =>
      if element.name = name then .ok ([.finish name], opened)
      else .error (.malformed offset (.mismatched element.name name))

/-- The events of the segments from an offset on, inside the open elements. -/
def eventsFrom (offset : Nat) (opened : List OpenElement) :
    List Segment → Except Error (List Event)
  | [] =>
    match opened with
    | [] => .ok []
    | element :: _ => .error (.malformed element.offset (.neverClosed element.name))
  | segment :: rest => do
    let (events, opened) ← match segment with
      | .gap content => do pure (← gapEvents offset content, opened)
      | .token t _ => tokenEvents offset opened t
    return events ++ (← eventsFrom (offset + Text.byteLength segment.source) opened rest)

/-- The events of a text. -/
def events (text : String) : Except Error (List Event) :=
  eventsFrom 0 [] (Segment.ofText text.toList)

end Document

namespace Segment

theorem flatMap_source_consChar (c : Char) (segments : List Segment) :
    (consChar c segments).flatMap source = c :: segments.flatMap source := by
  unfold consChar
  split <;> simp [source]

/-- The segments, put together again, are the text. -/
theorem flatMap_source_ofText (s : List Char) : (ofText s).flatMap source = s := by
  fun_induction ofText s with
  | case1 => rfl
  | case2 rest t after h ih =>
    obtain ⟨taken, ht⟩ := Token.scan?_suffix h
    have : rest.take (rest.length - after.length) = taken := by
      rw [← ht, List.length_append, Nat.add_sub_cancel, List.take_left]
    simp [source, ih, this, ht]
  | case3 rest h ih => rw [flatMap_source_consChar, ih]
  | case4 c rest hc ih => rw [flatMap_source_consChar, ih]

end Segment

end SqlMaps.Markup
