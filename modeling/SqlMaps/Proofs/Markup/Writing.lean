import SqlMaps.Markup.Forest
import SqlMaps.Proofs.Markup.Accepted

/-! Writing a forest as markup, and reading it again.

What would be markup in a text or a value is written as references (`Entity.escape`), and
decoding undoes it in one pass (`decode_escape`). A forest that can be written
(`Forest.Writable`) is written element by element, and one without content in one tag or in
two, as one likes (`Forest.Writes`). However it is written, reading gives the events of the
forest (`events_of_writes`). -/
namespace SqlMaps.Markup

namespace Entity

/-- The character as a reference, if it has one of its own that is needed in writing. -/
def reference : Char → List Char
  | '&' => "&amp;".toList
  | '<' => "&lt;".toList
  | '>' => "&gt;".toList
  | '"' => "&quot;".toList
  | c => [c]

/-- The text with some characters written as references. -/
def escape (special s : List Char) : List Char :=
  s.flatMap fun c => if c ∈ special then reference c else [c]

theorem decode_reference (c : Char) (rest : List Char) :
    decode (reference c ++ rest) = c :: decode rest := by
  have hnamed : ∀ {v : List Char} {d : Char}, ';' ∉ v → named? v = some d →
      decode ('&' :: (v ++ ';' :: rest)) = d :: decode rest := by
    intro v d hv hd
    refine decode_of_reference ?_
    rw [reference?_append hv, hd]
    rfl
  unfold reference
  split
  · exact hnamed (v := ['a', 'm', 'p']) (by decide) rfl
  · exact hnamed (v := ['l', 't']) (by decide) rfl
  · exact hnamed (v := ['g', 't']) (by decide) rfl
  · exact hnamed (v := ['q', 'u', 'o', 't']) (by decide) rfl
  · exact decode_cons ‹_› rest

/-- What is written as references is read as what it was. -/
theorem decode_escape {special : List Char} (h : '&' ∈ special) (s : List Char) :
    decode (escape special s) = s := by
  induction s with
  | nil => rw [escape, List.flatMap_nil, decode]
  | cons c s ih =>
    have hmore : escape special (c :: s) =
        (if c ∈ special then reference c else [c]) ++ escape special s := rfl
    rw [hmore]
    split
    · rw [decode_reference, ih]
    · rename_i hc
      have hamp : c ≠ '&' := fun he => hc (he ▸ h)
      rw [List.singleton_append, decode_cons hamp, ih]

/-- No character that is escaped stands in what is written, but for the `&` of the references. -/
theorem not_mem_escape {special : List Char} {c : Char} (hc : c ∈ special) (href : ∀ d, c ∉ reference d)
    (s : List Char) : c ∉ escape special s := by
  rw [escape, List.mem_flatMap]
  rintro ⟨d, _, hd⟩
  split at hd
  · exact href d hd
  · rename_i hspecial
    rw [List.mem_singleton.1 hd] at hc
    exact hspecial hc

theorem lt_not_mem_reference (d : Char) : '<' ∉ reference d := by
  unfold reference
  split
  case h_5 hd _ _ => simpa using Ne.symm hd
  all_goals decide

theorem quote_not_mem_reference (d : Char) : '"' ∉ reference d := by
  unfold reference
  split
  case h_5 hd => simpa using Ne.symm hd
  all_goals decide

theorem isBlank_of_reference {c : Char} (h : Text.allBlank (reference c) = true) :
    Text.isBlank c = true := by
  unfold reference at h
  split at h
  · exact absurd h (by decide)
  · exact absurd h (by decide)
  · exact absurd h (by decide)
  · exact absurd h (by decide)
  · simpa [Text.allBlank] using h

/-- No reference is white space, nor does one stand for white space. -/
theorem allBlank_of_escape {special s : List Char} (h : Text.allBlank (escape special s) = true) :
    Text.allBlank s = true := by
  simp only [Text.allBlank, escape, List.all_flatMap, List.all_eq_true] at h ⊢
  intro c hc
  have hpiece := h c hc
  split at hpiece
  · exact isBlank_of_reference (List.all_eq_true.2 hpiece)
  · exact hpiece c (List.mem_singleton_self c)

end Entity

/-! ### Forests as markup -/

namespace Forest
open Entity

/-- Character data as it is written. -/
def writeText (content : String) : List Char :=
  escape ['&', '<', '>'] content.toList

/-- An attribute as it is written, with its value in double quotes. -/
def writeAttribute (a : String × String) : List Char :=
  ' ' :: (a.1.toList ++ '=' :: ('"' :: (escape ['&', '<', '"'] a.2.toList ++ ['"'])))

/-- A start tag, which says whether the element is empty. -/
def writeStart (name : String) (attributes : Attributes) (isEmpty : Bool) : List Char :=
  '<' :: (name.toList ++ (attributes.flatMap writeAttribute ++ Token.bracket isEmpty))

/-- An end tag. -/
def writeEnd (name : String) : List Char :=
  '<' :: '/' :: (name.toList ++ ['>'])

/-- A forest that can be written: elements and attributes bear names, and texts are read apart
from the white space between elements, and from each other. -/
inductive Writable : Forest → Prop where
  | nil : Writable .nil
  | text {content : String} {next : Forest} : Text.allBlank content.toList = false →
      (∀ more rest, next ≠ .text more rest) → Writable next → Writable (.text content next)
  | element {name : String} {attributes : Attributes} {inner next : Forest} :
      Token.IsName name.toList → (∀ a ∈ attributes, Token.IsName a.1.toList) →
      Writable inner → Writable next → Writable (.element name attributes inner next)

/-- How a forest can be written. An element without content is a tag or two. -/
inductive Writes : Forest → List Char → Prop where
  | nil : Writes .nil []
  | text {content : String} {next : Forest} {source : List Char} :
      Writes next source → Writes (.text content next) (writeText content ++ source)
  | empty {name : String} {attributes : Attributes} {next : Forest} {source : List Char} :
      Writes next source →
      Writes (.element name attributes .nil next)
        (writeStart name attributes true ++ source)
  | element {name : String} {attributes : Attributes} {inner next : Forest}
      {within source : List Char} :
      Writes inner within → Writes next source →
      Writes (.element name attributes inner next)
        (writeStart name attributes false ++ (within ++ (writeEnd name ++ source)))

theorem exists_writes (f : Forest) : ∃ source, f.Writes source := by
  induction f with
  | nil => exact ⟨_, .nil⟩
  | text content next ih => exact ⟨_, .text ih.choose_spec⟩
  | element name attributes inner next ihInner ih =>
    exact ⟨_, .element ihInner.choose_spec ih.choose_spec⟩

/-! ### The tags of a written forest -/

variable {name : String} {a : Attributes}

theorem isAttribute_writeAttribute {p : String × String} (h : Token.IsName p.1.toList) :
    Token.IsAttribute p (writeAttribute p) := by
  have hquoted : Token.IsQuoted (escape ['&', '<', '"'] p.2.toList)
      ('"' :: (escape ['&', '<', '"'] p.2.toList ++ ['"'])) :=
    .double (not_mem_escape (by decide) quote_not_mem_reference _)
  have hdecoded : Decodes (escape ['&', '<', '"'] p.2.toList) p.2.toList :=
    decodes_iff.2 (decode_escape (by decide) _)
  have hwritten : Token.IsAttribute _
      ([' '] ++ (p.1.toList ++ ([] ++ '=' :: ([] ++ '"' :: (escape _ p.2.toList ++ ['"']))))) :=
    .intro (by decide) (by decide) h rfl rfl hquoted hdecoded
  rw [String.ofList_toList, String.ofList_toList] at hwritten
  exact hwritten

theorem areAttributes_writeAttribute (h : ∀ p ∈ a, Token.IsName p.1.toList) :
    Token.AreAttributes a (a.flatMap writeAttribute) := by
  induction a with
  | nil => exact .nil
  | cons p a ih =>
    exact .cons (isAttribute_writeAttribute (h p (List.mem_cons_self ..)))
      (ih fun q hq => h q (List.mem_cons_of_mem _ hq))

/-- The start tag of an element is read as it. -/
theorem written_opening (hname : Token.IsName name.toList)
    (ha : ∀ p ∈ a, Token.IsName p.1.toList) (isEmpty : Bool) :
    Token.Written (.opening name a isEmpty) (writeStart name a isEmpty) := by
  have hend : Token.IsTagEnd a isEmpty (a.flatMap writeAttribute ++ ([] ++ Token.bracket isEmpty)) :=
    .intro (areAttributes_writeAttribute ha) rfl
  have htag := Token.Written.tag (.opening hname hend)
  simpa [writeStart] using htag

/-- The end tag of an element is read as it. -/
theorem written_closing (hname : Token.IsName name.toList) :
    Token.Written (.closing name) (writeEnd name) := by
  have hend : Token.IsTagEnd [] false ([] ++ ([] ++ Token.bracket false)) := .intro .nil rfl
  have htag := Token.Written.tag (.closing hname hend)
  simpa [writeEnd, Token.bracket] using htag

/-! ### The segments of a written forest -/

open Segment

/-- The segments that a text is cut into which is a forest, and what they come to, inside
elements that are still open. -/
structure CutInto (f : Forest) (source : List Char) (segments : List Segment) : Prop where
  spaced : Spaced segments
  plain : ∀ s ∈ segments, Plain s
  source : segments.flatMap Segment.source = source
  events : segments.flatMap Segment.events = f.events
  nested : ∀ names rest, Nested names rest → Nested names (segments ++ rest)
  /-- It begins with character data only where the forest begins with a text. -/
  head : ∀ content tail, segments = .gap content :: tail → ∃ text next, f = .text text next

theorem allBlank_writeText {content : String} (h : Text.allBlank content.toList = false) :
    Text.allBlank (writeText content) = false := by
  cases hblank : Text.allBlank (writeText content) with
  | false => rfl
  | true =>
    rw [allBlank_of_escape hblank] at h
    cases h

/-- Character data that is no white space is read as the text it was written for. -/
theorem events_writeText {content : String} (h : Text.allBlank content.toList = false) :
    Segment.events (.gap (writeText content)) = [.text content] := by
  rw [Segment.events, dataEvents, allBlank_writeText h, writeText, decode_escape (by decide),
    String.ofList_toList]
  rfl

/-- A tag behind segments parts them from what follows. -/
theorem spaced_append_token {xs ys : List Segment} (hxs : Spaced xs) (hys : Spaced ys) (t : Token)
    (source : List Char) : Spaced (xs ++ .token t source :: ys) := by
  induction xs with
  | nil => exact hys
  | cons x xs ih =>
    cases x with
    | token t' source' => exact ih hxs
    | gap content =>
      obtain ⟨hne, hnext, hrest⟩ := hxs
      refine ⟨hne, fun more tail he => ?_, ih hrest⟩
      cases xs with
      | nil => cases he
      | cons y xs => exact hnext more xs (by rw [(List.cons.inj he).1])

theorem Writes.exists_cutInto {f : Forest} {source : List Char} (hf : f.Writable)
    (h : f.Writes source) : ∃ segments, f.CutInto source segments := by
  induction h with
  | nil => exact ⟨[], trivial, by simp, rfl, rfl, fun _ _ h => h, by simp⟩
  | @text content next source _ ih =>
    cases hf with
    | text hcontent hapart hnext =>
      obtain ⟨segments, hcut⟩ := ih hnext
      have hdata : '<' ∉ writeText content :=
        not_mem_escape (by decide) lt_not_mem_reference _
      have hne : writeText content ≠ [] := by
        intro hnil
        have hblank := allBlank_writeText hcontent
        rw [hnil] at hblank
        cases hblank
      refine ⟨.gap (writeText content) :: segments, ⟨hne, fun more tail he => ?_, hcut.spaced⟩,
        ?_, ?_, ?_, fun names rest hrest => ?_, fun _ _ _ => ⟨_, _, rfl⟩⟩
      · obtain ⟨text, rest, hnext'⟩ := hcut.head more tail he
        exact hapart text rest hnext'
      · exact List.forall_mem_cons.2 ⟨hdata, hcut.plain⟩
      · rw [List.flatMap_cons, hcut.source]
        rfl
      · rw [List.flatMap_cons, hcut.events, events_writeText hcontent]
        rfl
      · exact ⟨names, if_neg hdata, hcut.nested names rest hrest⟩
  | @empty name attributes next source _ ih =>
    cases hf with
    | element hname ha _ hnext =>
      obtain ⟨segments, hcut⟩ := ih hnext
      have hwritten := written_opening hname ha true
      refine ⟨.token (.opening name attributes true) (writeStart name attributes true) :: segments,
        hcut.spaced, ?_, ?_, ?_,
        fun names rest hrest => ?_, fun _ _ he => (nomatch he)⟩
      · exact List.forall_mem_cons.2 ⟨plain_token_iff.2 hwritten, hcut.plain⟩
      · rw [List.flatMap_cons, hcut.source]
        rfl
      · rw [List.flatMap_cons, hcut.events]
        rfl
      · exact ⟨names, rfl, hcut.nested names rest hrest⟩
  | @element name attributes inner next within source _ _ ihInner ih =>
    cases hf with
    | element hname ha hinner hnext =>
      obtain ⟨xs, hxs⟩ := ihInner hinner
      obtain ⟨ys, hys⟩ := ih hnext
      have hopening := written_opening hname ha false
      have hclosing := written_closing hname
      refine ⟨.token (.opening name attributes false) (writeStart name attributes false) ::
          (xs ++ .token (.closing name) (writeEnd name) :: ys),
        spaced_append_token hxs.spaced hys.spaced _ _, ?_, ?_, ?_, fun names rest hrest => ?_,
        fun _ _ he => (nomatch he)⟩
      · refine List.forall_mem_cons.2 ⟨plain_token_iff.2 hopening, fun s hs => ?_⟩
        rcases List.mem_append.1 hs with hs | hs
        · exact hxs.plain s hs
        · exact List.forall_mem_cons.2 ⟨plain_token_iff.2 hclosing, hys.plain⟩ s hs
      · rw [List.flatMap_cons, List.flatMap_append, List.flatMap_cons, hxs.source, hys.source]
        rfl
      · rw [List.flatMap_cons, List.flatMap_append, List.flatMap_cons, hxs.events, hys.events]
        simp [Segment.events, Forest.events]
      · have hbehind : Nested (name :: names) 
            (.token (.closing name) (writeEnd name) :: (ys ++ rest)) :=
          ⟨names, if_pos rfl, hys.nested names rest hrest⟩
        refine ⟨name :: names, rfl, ?_⟩
        simpa using hxs.nested (name :: names) _ hbehind

/-- Reading undoes writing. A forest that can be written can be, and however it is written,
what is read are its events: each text and each value is what it was, whatever is in it. -/
theorem events_of_writes (f : Forest) (hf : f.Writable) :
    (∃ source, f.Writes source) ∧
      ∀ source, f.Writes source → Document.events (String.ofList source) = .ok f.events := by
  refine ⟨exists_writes f, fun source h => ?_⟩
  obtain ⟨segments, hcut⟩ := h.exists_cutInto hf
  have hsegments : ofText (String.ofList source).toList = segments := by
    rw [String.toList_ofList, ← hcut.source, ofText_flatMap_source hcut.plain hcut.spaced]
  rw [Document.events_eq_ok_iff, hsegments]
  refine ⟨?_, hcut.events⟩
  simpa using hcut.nested [] [] rfl

/-- An element with a value and a text that look like markup, and an element in it. -/
def quoting : Forest :=
  .element "note" [("of", "\"<b>\" & more")]
    (.text "&lt; ]]> <!-- -->" (.element "br" [] .nil .nil)) .nil

theorem events_of_writes_quoting :
    let source :=
      "<note of=\"&quot;&lt;b>&quot; &amp; more\">&amp;lt; ]]&gt; &lt;!-- --&gt;<br/></note>"
    quoting.Writable ∧ quoting.Writes source.toList ∧
      Document.events source =
        .ok [.start "note" [("of", "\"<b>\" & more")], .text "&lt; ]]> <!-- -->",
          .start "br" [], .finish "br", .finish "note"] := by
  intro source
  have hnote : Token.IsName ['n', 'o', 't', 'e'] := .intro rfl (List.all_eq_true.1 rfl)
  have hof : Token.IsName ['o', 'f'] := .intro rfl (List.all_eq_true.1 rfl)
  have hbr : Token.IsName ['b', 'r'] := .intro rfl (List.all_eq_true.1 rfl)
  have hwritable : quoting.Writable :=
    .element hnote (by simpa using hof)
      (.text (by decide) (fun _ _ h => (nomatch h)) (.element hbr (by simp) .nil .nil)) .nil
  have hwrites : quoting.Writes source.toList := by
    have hsource : writeStart "note" [("of", "\"<b>\" & more")] false ++
        (writeText "&lt; ]]> <!-- -->" ++ (writeStart "br" [] true ++ []) ++
          (writeEnd "note" ++ [])) = source.toList := by decide +kernel
    rw [← hsource]
    exact .element (.text (.empty .nil)) .nil
  refine ⟨hwritable, hwrites, ?_⟩
  have hevents := (events_of_writes quoting hwritable).2 _ hwrites
  rwa [String.ofList_toList] at hevents

end Forest

end SqlMaps.Markup
