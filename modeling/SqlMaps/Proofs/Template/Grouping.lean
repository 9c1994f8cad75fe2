import SqlMaps.Proofs.Template.Unmet

/-! Elements that only group.

An element that is neither a statement nor a directive has no part in what is rendered: its own
texts are dropped, and the directives in it belong to what stands around it. So it comes to the
same as the elements that stand directly in it, without the texts between them (`write_grouping`),
and can be exchanged for them anywhere in a template (`compile_withoutGrouping`). -/
namespace SqlMaps.Markup

/-- A tree in which one place is left open. -/
inductive Context where
  /-- The open place, and what stands behind it. -/
  | here (next : Forest)
  | text (content : String) (rest : Context)
  /-- The place is inside an element. -/
  | inside (name : String) (attributes : Attributes) (body : Context) (next : Forest)
  /-- The place is behind an element. -/
  | behind (name : String) (attributes : Attributes) (inner : Forest) (rest : Context)

/-- The tree that has another one in the open place. -/
def Context.fill : Context → Forest → Forest
  | .here next, f => f ++ next
  | .text content rest, f => .text content (rest.fill f)
  | .inside name attributes body next, f => .element name attributes (body.fill f) next
  | .behind name attributes inner rest, f => .element name attributes inner (rest.fill f)

/-- Whatever stands in the open place, the same events are around it. -/
theorem Context.events_fill (c : Context) :
    ∃ before rest, ∀ f : Forest, (c.fill f).events = before ++ f.events ++ rest := by
  induction c with
  | here next => exact ⟨[], next.events, fun f => by simp [fill, Forest.events_append]⟩
  | text content rest ih =>
    obtain ⟨before, after, h⟩ := ih
    exact ⟨.text content :: before, after, fun f => by simp [fill, Forest.events, h]⟩
  | inside name attributes body next ih =>
    obtain ⟨before, after, h⟩ := ih
    exact ⟨.start name attributes :: before, after ++ .finish name :: next.events,
      fun f => by simp [fill, Forest.events, h]⟩
  | behind name attributes inner rest ih =>
    obtain ⟨before, after, h⟩ := ih
    exact ⟨.start name attributes :: inner.events ++ .finish name :: before, after,
      fun f => by simp [fill, Forest.events, h]⟩

/-- The elements that stand directly in a forest, without the texts between them. -/
def Forest.elements : Forest → Forest
  | .nil => .nil
  | .text _ next => next.elements
  | .element name attributes inner next => .element name attributes inner next.elements

end SqlMaps.Markup

namespace SqlMaps.Template
open Markup

theorem Kind.ofTag?_eq_none {name : String} (h : Kind.ofTag? name = none) :
    StatementKind.ofTag? name = none ∧ DirectiveKind.ofTag? name = none := by
  rw [Kind.ofTag?] at h
  cases hstatement : StatementKind.ofTag? name with
  | some => simp [hstatement] at h
  | none => simpa [hstatement] using h

/-! ### What is written -/

section
variable {params : Params} {kind : Kind} {attributes : Attributes}

/-- Where the texts do not count, there may as well be none. -/
theorem write_elements (ownText : Bool) (f : Forest) (p : Page) :
    write params kind attributes ownText f.elements p = write params kind attributes false f p := by
  induction f generalizing p with
  | nil => rfl
  | text content next ih => exact ih p
  | element name a inner next _ ih =>
    simp only [Forest.elements, write]
    split <;> exact ih _

/-- An element that only groups writes what the elements in it write. -/
theorem write_grouping {name : String} (hname : DirectiveKind.ofTag? name = none) (a : Attributes)
    (content : Forest) (ownText : Bool) :
    WritesAlike params kind attributes ownText (.element name a content .nil) content.elements := by
  intro p
  rw [write_elements, write, hname]
  rfl

end

/-! ### What is legal -/

namespace Reader
variable {kind : StatementKind} {root : OpenPart}

/-- An element that only groups has no say in which elements may start inside it. -/
theorem misplaced?_grouping {part : OpenPart} (hpart : DirectiveKind.ofTag? part.name = none)
    (above outer : List OpenPart) (name : String) :
    misplaced? kind root (above ++ part :: outer) name = none ↔
      misplaced? kind root (above ++ outer) name = none := by
  have howner : owner kind (above ++ part :: outer) = owner kind (above ++ outer) := by
    simp only [owner, List.findSome?_append, List.findSome?_cons, hpart]
  rw [misplaced?, misplaced?, howner]
  cases DirectiveKind.ofTag? name with
  | some directive => cases directive <;> rfl
  | none => simp

theorem wellPlaced_grouping {part : OpenPart} (hpart : DirectiveKind.ofTag? part.name = none)
    (above outer : List OpenPart) (f : Forest) :
    WellPlaced kind root (above ++ part :: outer) f ↔ WellPlaced kind root (above ++ outer) f := by
  induction f generalizing above with
  | nil => exact Iff.rfl
  | text content next ih => exact ih above
  | element name a body next ihBody ihNext =>
    exact and_congr (misplaced?_grouping hpart above outer name)
      (and_congr (ihBody (.start name a :: above)) (ihNext above))

theorem wellPlaced_elements {inner : List OpenPart} (f : Forest) :
    WellPlaced kind root inner f.elements ↔ WellPlaced kind root inner f := by
  induction f with
  | nil => exact Iff.rfl
  | text content next ih => exact ih
  | element name a body next _ ih => exact and_congr_right fun _ => and_congr_right fun _ => ih

/-- An element that only groups is legal where the elements in it are. -/
theorem wellPlaced_grouping_iff {name : String} (hname : Kind.ofTag? name = none) (a : Attributes)
    (content : Forest) {inner : List OpenPart} :
    WellPlaced kind root inner (.element name a content .nil) ↔
      WellPlaced kind root inner content.elements := by
  obtain ⟨hstatement, hdirective⟩ := Kind.ofTag?_eq_none hname
  have hplace : misplaced? kind root inner name = none := by
    simp only [misplaced?, hdirective, hstatement, Option.map_none]
  have hcontent := @wellPlaced_grouping kind root (.start name a) hdirective [] inner content
  rw [wellPlaced_elements]
  exact ⟨fun h => hcontent.1 h.2.1, fun h => ⟨hplace, hcontent.2 h, trivial⟩⟩

/-! ### Between statements -/

/-- Read from between statements, a tree decides the result, or is passed over. -/
theorem result_seeking_events (id : String) (f : Forest) :
    (∀ rest rest', Reader.seeking.result id (f.events.map .ok ++ rest) =
        Reader.seeking.result id (f.events.map .ok ++ rest')) ∨
      ∀ rest, Reader.seeking.result id (f.events.map .ok ++ rest) = Reader.seeking.result id rest := by
  induction f with
  | nil => exact .inr fun _ => rfl
  | text content next ih => exact ih
  | element name a inner next ihInner ihNext =>
    have hevents : ∀ rest : List Answer,
        (Forest.element name a inner next).events.map Except.ok ++ rest =
        .ok (.start name a) ::
          (inner.events.map .ok ++ .ok (.finish name) :: (next.events.map .ok ++ rest)) := by
      intro rest
      simp [Forest.events]
    simp only [hevents]
    cases hkind : StatementKind.ofTag? name with
    | some kind =>
      by_cases hid : ("id", id) ∈ a
      · left
        intro rest rest'
        rw [result_of_continue (step_seeking_wanted hkind hid),
          result_of_continue (step_seeking_wanted hkind hid)]
        exact (result_finished id inner name _).trans (result_finished id inner name _).symm
      · have hpassed : ∀ rest, Reader.seeking.result id (.ok (.start name a) ::
            (inner.events.map .ok ++ .ok (.finish name) :: (next.events.map .ok ++ rest))) =
              Reader.seeking.result id (next.events.map .ok ++ rest) := by
          intro rest
          rw [result_of_continue (step_seeking_other hkind hid),
            result_append (after?_skipping inner name 0)]
          rfl
        simpa only [hpassed] using ihNext
    | none =>
      cases hdirective : DirectiveKind.ofTag? name with
      | some directive =>
        left
        intro rest rest'
        rw [result_of_done (step_seeking_directive hkind hdirective),
          result_of_done (step_seeking_directive hkind hdirective)]
      | none =>
        simp only [result_of_continue (step_seeking_grouping hkind hdirective)]
        rcases ihInner with hdecided | hpassed
        · exact .inl fun rest rest' => hdecided _ _
        · simp only [hpassed]
          exact ihNext

/-- Between statements texts are passed over. -/
theorem result_seeking_elements (id : String) (f : Forest) (rest : List Answer) :
    Reader.seeking.result id (f.elements.events.map .ok ++ rest) =
      Reader.seeking.result id (f.events.map .ok ++ rest) := by
  induction f with
  | nil => rfl
  | text content next ih => exact ih
  | element name a inner next _ ih =>
    have hevents : ∀ g : Forest, (Forest.element name a inner g).events.map Except.ok ++ rest =
        (Forest.element name a inner .nil).events.map .ok ++ (g.events.map .ok ++ rest) := by
      intro g
      simp [Forest.events]
    rw [Forest.elements, hevents, hevents next]
    rcases result_seeking_events id (.element name a inner .nil) with hdecided | hpassed
    · exact hdecided _ _
    · rw [hpassed, hpassed, ih]

/-- An element that only groups is passed over between statements, but not what is in it. -/
theorem result_seeking_grouping {id name : String} (hname : Kind.ofTag? name = none)
    (a : Attributes) (content : Forest) (rest : List Answer) :
    Reader.seeking.result id ((Forest.element name a content .nil).events.map .ok ++ rest) =
      Reader.seeking.result id (content.elements.events.map .ok ++ rest) := by
  obtain ⟨hstatement, hdirective⟩ := Kind.ofTag?_eq_none hname
  have hevents : (Forest.element name a content .nil).events.map Except.ok ++ rest =
      .ok (.start name a) :: (content.events.map .ok ++ .ok (.finish name) :: rest) := by
    simp [Forest.events]
  rw [hevents, result_of_continue (step_seeking_grouping hstatement hdirective),
    result_seeking_elements]
  rcases result_seeking_events id content with hdecided | hpassed
  · exact hdecided _ _
  · rw [hpassed, hpassed]
    rfl

end Reader

/-- An element that is neither a statement nor a directive can be exchanged for the elements that
stand directly in it, in order and without the texts between them, wherever it stands in a
template: the one compiles to just what the other does. -/
theorem compile_withoutGrouping {name : String} (hname : Kind.ofTag? name = none)
    (place : Context) (attributes : Attributes) (content : Forest) (id : String)
    (params : List Param) (shown : Shown) :
    compileShown (.ofForest (place.fill (.element name attributes content .nil))) id params =
        .ok shown ↔
      compileShown (.ofForest (place.fill content.elements)) id params = .ok shown := by
  obtain ⟨before, rest, hevents⟩ := place.events_fill
  have hseeking := @Reader.result_seeking_grouping id name hname attributes content
  have hwrite := fun kind a ownText => @write_grouping (.ofList params) kind a name
    (Kind.ofTag?_eq_none hname).2 attributes content ownText
  simp only [Source.ofForest, Source.ofEvents, hevents, List.map_append]
  constructor
  · exact compileShown_exchanged (fun rest _ hs => by rw [← hseeking, hs]; exact .refl _ _)
      (Reader.wellPlaced_grouping_iff hname attributes content).1 hwrite
  · exact compileShown_exchanged (fun rest _ hs => by rw [hseeking, hs]; exact .refl _ _)
      (Reader.wellPlaced_grouping_iff hname attributes content).2
      (fun kind a ownText p => (hwrite kind a ownText p).symm)

/-- Of two groups, one inside the other, in a conditional that holds, the outer one is taken away;
its text goes with it, and that of the conditional inside it stays. -/
theorem compile_withoutGrouping_nested :
    let place : Context :=
      .inside "select" [("id", "q")]
        (.text "SELECT a FROM t"
          (.inside "isNotNull" [("property", "x")]
            (.text "WHERE b = 1" (.here (.text "AND e = 5" .nil))) .nil))
        .nil
    let content : Forest :=
      .text "dropped"
        (.element "isNull" [("property", "y"), ("prepend", "AND")] (.text "c = 3" .nil)
          (.text "dropped too"
            (.element "inner" []
              (.element "dynamic" [("prepend", "OR")] (.text "d = 4" .nil) .nil) .nil)))
    Kind.ofTag? "group" = none ∧
      compileShown (.ofForest (place.fill (.element "group" [] content .nil))) "q"
          [⟨"x", .integer 2⟩] =
        .ok ⟨"SELECT a FROM t\nWHERE b = 1\nAND e = 5\nAND\nc = 3\nOR\nd = 4", []⟩ ∧
      compileShown (.ofForest (place.fill content.elements)) "q" [⟨"x", .integer 2⟩] =
        .ok ⟨"SELECT a FROM t\nWHERE b = 1\nAND e = 5\nAND\nc = 3\nOR\nd = 4", []⟩ := by
  intro place content
  have hname : Kind.ofTag? "group" = none := by decide
  have h : compileShown (.ofForest (place.fill (.element "group" [] content .nil))) "q"
      [⟨"x", .integer 2⟩] =
        .ok ⟨"SELECT a FROM t\nWHERE b = 1\nAND e = 5\nAND\nc = 3\nOR\nd = 4", []⟩ := by
    decide +kernel
  exact ⟨hname, h, (compile_withoutGrouping hname place [] content "q" _ _).1 h⟩

end SqlMaps.Template
