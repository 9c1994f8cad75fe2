import SqlMaps.Proofs.Template.Reading

/-! What a query is compiled from.

A template may hold any number of statements. The reader passes over those with another id,
whatever is nested in them, and stops with the end of the wanted one. `PassedOver` says what
may stand in front of that one, and `compile_ownStatement` that neither this nor anything
behind it has a say: the query, or the error, is that of the statement alone. -/
namespace SqlMaps.Markup

/-- Every element that starts among the events also ends among them. An end need not bear the
name of what it ends. -/
inductive Balanced : List Event → Prop
  | nil : Balanced []
  | text (content : String) {next : List Event} : Balanced next → Balanced (.text content :: next)
  | element (name : String) (attributes : Attributes) {inner next : List Event} (closing : String) :
      Balanced inner → Balanced next →
      Balanced (.start name attributes :: inner ++ .finish closing :: next)

end SqlMaps.Markup

namespace SqlMaps.Template
open Markup

namespace Reader
variable {id : String}

/-! ### Steps from between statements -/

section
variable {name : String} {kind : StatementKind} {a : Attributes}

theorem step_seeking_wanted (hname : StatementKind.ofTag? name = some kind) (hid : ("id", id) ∈ a) :
    Reader.seeking.step id (.start name a) = .continue (.inside kind (.start name a) []) := by
  simp only [Reader.step, stepSeeking, hname, if_pos (show GivesId id a from hid)]

theorem step_seeking_other (hname : StatementKind.ofTag? name = some kind) (hid : ("id", id) ∉ a) :
    Reader.seeking.step id (.start name a) = .continue (.skipping name 1) := by
  simp only [Reader.step, stepSeeking, hname, if_neg (show ¬ GivesId id a from hid)]

theorem step_seeking_grouping (hstatement : StatementKind.ofTag? name = none)
    (hdirective : DirectiveKind.ofTag? name = none) :
    Reader.seeking.step id (.start name a) = .continue .seeking := by
  simp only [Reader.step, stepSeeking, hstatement, hdirective]

theorem step_seeking_directive (hstatement : StatementKind.ofTag? name = none)
    {directive : DirectiveKind} (hdirective : DirectiveKind.ofTag? name = some directive) :
    Reader.seeking.step id (.start name a) =
      .done (.error (.illegalStructure (.directiveOutside name))) := by
  simp only [Reader.step, stepSeeking, hstatement, hdirective]

end

/-! ### Whole elements -/

/-- Answers that every reader takes alike may be exchanged behind any others. -/
theorem result_congr {rest rest' : List Answer}
    (h : ∀ reader : Reader, reader.result id rest = reader.result id rest') (before : List Answer)
    (reader : Reader) : reader.result id (before ++ rest) = reader.result id (before ++ rest') := by
  cases hread : reader.after? id before with
  | none => exact result_of_decided hread _ _
  | some reader' =>
    rw [result_append hread, result_append hread]
    exact h reader'

/-- The name that an end bears is not looked at. -/
theorem result_finish (name name' : String) (rest : List Answer) (reader : Reader) :
    reader.result id (.ok (.finish name) :: rest) = reader.result id (.ok (.finish name') :: rest) := by
  rcases reader with _ | _ | ⟨kind, root, _ | _⟩ <;> rfl

/-- Balanced events are read as the tree they make up. -/
theorem exists_forest {es : List Event} (h : Balanced es) (id : String) :
    ∃ f : Forest, ∀ (reader : Reader) (rest : List Answer),
      reader.result id (es.map .ok ++ rest) = reader.result id (f.events.map .ok ++ rest) := by
  induction h with
  | nil => exact ⟨.nil, fun _ _ => rfl⟩
  | text content _ ih =>
    obtain ⟨f, hf⟩ := ih
    refine ⟨.text content f, fun reader rest => ?_⟩
    exact result_congr (fun r => hf r rest) [.ok (.text content)] reader
  | @element name attributes inner next closing _ _ ihInner ihNext =>
    obtain ⟨f, hf⟩ := ihInner
    obtain ⟨g, hg⟩ := ihNext
    refine ⟨.element name attributes f g, fun reader rest => ?_⟩
    have hend : ∀ r : Reader, r.result id (.ok (.finish closing) :: (next.map .ok ++ rest)) =
        r.result id (.ok (.finish name) :: (g.events.map .ok ++ rest)) := by
      intro r
      rw [result_finish closing name]
      exact result_congr (fun r => hg r rest) [.ok (.finish name)] r
    have hbody : ∀ r : Reader,
        r.result id (inner.map .ok ++ .ok (.finish closing) :: (next.map .ok ++ rest)) =
          r.result id (f.events.map .ok ++ .ok (.finish name) :: (g.events.map .ok ++ rest)) := by
      intro r
      rw [hf]
      exact result_congr hend _ r
    have hstart := result_congr hbody [.ok (.start name attributes)] reader
    simpa [Forest.events] using hstart

/-- In a statement with another id, whole elements leave the reader as deep as it was. -/
theorem after?_skipping (f : Forest) (name : String) (depth : Nat) :
    after? id (.skipping name (depth + 1)) (f.events.map .ok) = some (.skipping name (depth + 1)) := by
  induction f generalizing depth with
  | nil => rfl
  | text content next ih => exact ih depth
  | element child attributes inner next ihInner ihNext =>
    have hevents : (Forest.element child attributes inner next).events.map Except.ok =
        ([.ok (.start child attributes)] ++ inner.events.map .ok ++
          .ok (.finish child) :: next.events.map .ok : List Answer) := by
      simp [Forest.events]
    have hinner : after? id (.skipping name (depth + 1))
        ([.ok (.start child attributes)] ++ inner.events.map .ok) =
          some (.skipping name (depth + 1 + 1)) := ihInner (depth + 1)
    have hfinish : after? id (.skipping name (depth + 1 + 1))
        (.ok (.finish child) :: next.events.map .ok) =
          after? id (.skipping name (depth + 1)) (next.events.map .ok) := by
      simp [after?, Reader.step, stepSkipping]
    rw [hevents, after?_append, hinner]
    exact hfinish.trans (ihNext depth)

section
variable {kind : StatementKind} {root : OpenPart} {inner : List OpenPart}

/-- Inside the wanted statement a tree is well placed, or it is refused whatever follows. -/
theorem wellPlaced_or_refused (id : String) (f : Forest) :
    WellPlaced kind root inner f ∨
      ∃ e, ∀ rest, (Reader.inside kind root inner).result id (f.events.map .ok ++ rest) = .error e := by
  induction f generalizing root inner with
  | nil => exact .inl trivial
  | text content next ih =>
    obtain ⟨root', inner', hadd, hroot, hinner, -⟩ :=
      addInside_next kind root inner (.text content .nil)
    have hread : ∀ rest, (Reader.inside kind root inner).result id
        ((Forest.text content next).events.map .ok ++ rest) =
          (Reader.inside kind root' inner').result id (next.events.map .ok ++ rest) :=
      fun rest => result_of_continue (congrArg Progress.continue hadd)
    rcases @ih root' inner' with hnext | ⟨e, he⟩
    · exact .inl (wellPlaced_congr hroot.symm hinner.symm hnext)
    · exact .inr ⟨e, fun rest => (hread rest).trans (he rest)⟩
  | element name a body next ihBody ihNext =>
    have hevents : ∀ rest : List Answer,
        (Forest.element name a body next).events.map .ok ++ rest =
          .ok (.start name a) ::
            (body.events.map .ok ++ (.ok (.finish name) :: (next.events.map .ok ++ rest))) := by
      intro rest
      simp [Forest.events]
    cases hplace : misplaced? kind root inner name with
    | some cause =>
      refine .inr ⟨.illegalStructure cause, fun rest => ?_⟩
      rw [hevents]
      exact result_of_done (by simp only [Reader.step, stepInside, hplace])
    | none =>
      have hstart : ∀ rest, (Reader.inside kind root inner).result id (.ok (.start name a) :: rest) =
          (Reader.inside kind root (.start name a :: inner)).result id rest :=
        fun rest => result_of_continue (by simp only [Reader.step, stepInside, hplace])
      rcases @ihBody root (.start name a :: inner) with hbody | ⟨e, he⟩
      · obtain ⟨root', inner', hadd, hroot, hinner, -⟩ :=
          addInside_next kind root inner (.element name a body .nil)
        have hread : ∀ rest, (Reader.inside kind root inner).result id
            ((Forest.element name a body next).events.map .ok ++ rest) =
              (Reader.inside kind root' inner').result id (next.events.map .ok ++ rest) := by
          intro rest
          rw [hevents, hstart, result_append (after?_events id hbody)]
          exact result_of_continue (congrArg Progress.continue hadd)
        rcases @ihNext root' inner' with hnext | ⟨e, he⟩
        · exact .inl ⟨hplace, hbody, wellPlaced_congr hroot.symm hinner.symm hnext⟩
        · exact .inr ⟨e, fun rest => (hread rest).trans (he rest)⟩
      · exact .inr ⟨e, fun rest => by rw [hevents, hstart, he]⟩

/-- Behind a tree that ends the wanted statement nothing is read. -/
theorem result_finished (id : String) (f : Forest) (closing : String) (rest : List Answer) :
    (Reader.inside kind root []).result id (f.events.map .ok ++ .ok (.finish closing) :: rest) =
      (Reader.inside kind root []).result id (f.events.map .ok ++ [.ok (.finish closing)]) := by
  rcases @wellPlaced_or_refused kind root [] id f with hf | ⟨e, he⟩
  · rw [result_append (after?_events id hf), result_append (after?_events id hf)]
    rfl
  · rw [he, he]

end

end Reader

/-! ### The selected statement of a tree -/

/-- The first statement of the tree with the id that is not inside another statement. -/
def selected? (id : String) : Forest → Option Statement
  | .nil => none
  | .text _ next => selected? id next
  | .element name attributes inner next =>
    match StatementKind.ofTag? name with
    | some kind =>
      if attributes.contains ("id", id) then some ⟨kind, attributes, inner⟩ else selected? id next
    | none => selected? id inner <|> selected? id next

/-- Reading a tree from between statements ends with the selected one, or behind the tree. -/
theorem Reader.selected?_of_result {id : String} (f : Forest) {rest : List Answer} {s : Statement}
    (h : Reader.seeking.result id (f.events.map .ok ++ rest) = .ok s) :
    selected? id f = some s ∨
      selected? id f = none ∧ Reader.seeking.result id rest = .ok s := by
  induction f generalizing rest with
  | nil => exact .inr ⟨rfl, h⟩
  | text content next ih => exact ih ((result_of_continue rfl).symm.trans h)
  | element name a inner next ihInner ihNext =>
    have hevents : (Forest.element name a inner next).events.map Except.ok ++ rest =
        .ok (.start name a) ::
          (inner.events.map .ok ++ .ok (.finish name) :: (next.events.map .ok ++ rest)) := by
      simp [Forest.events]
    rw [hevents] at h
    cases hkind : StatementKind.ofTag? name with
    | some kind =>
      by_cases hid : ("id", id) ∈ a
      · rw [result_of_continue (step_seeking_wanted hkind hid)] at h
        rcases @wellPlaced_or_refused kind (.start name a) [] id inner with hplaced | ⟨e, he⟩
        · rw [result_append (after?_events id hplaced)] at h
          have hs : ⟨kind, a, inner⟩ = s := Except.ok.inj ((result_of_done rfl).symm.trans h)
          exact .inl (by simp [selected?, hkind, hid, hs])
        · rw [he] at h
          cases h
      · rw [result_of_continue (step_seeking_other hkind hid),
          result_append (after?_skipping inner name 0)] at h
        simpa [selected?, hkind, hid] using ihNext ((result_of_continue rfl).symm.trans h)
    | none =>
      cases hdirective : DirectiveKind.ofTag? name with
      | some directive =>
        rw [result_of_done (step_seeking_directive hkind hdirective)] at h
        cases h
      | none =>
        rw [result_of_continue (step_seeking_grouping hkind hdirective)] at h
        rcases ihInner h with hinner | ⟨hinner, hrest⟩
        · exact .inl (by simp [selected?, hkind, hinner])
        · have hnext := ihNext ((result_of_continue rfl).symm.trans hrest)
          simpa [selected?, hkind, hinner] using hnext

/-- A tree compiles to its selected statement. -/
theorem compile_ofForest {tree : Forest} {id : String} {params : List Param}
    {query : CompiledQuery} (h : compile (.ofForest tree) id params = .ok query) :
    ∃ s, selected? id tree = some s ∧ query = s.compile (.ofList params) := by
  rw [Source.ofForest, Source.ofEvents, compile_answering] at h
  generalize hr : Reader.seeking.result id (tree.events.map .ok) = r at h
  cases r with
  | error e => cases h
  | ok s =>
    rw [← List.append_nil (tree.events.map Except.ok)] at hr
    rcases Reader.selected?_of_result tree hr with hs | ⟨-, hend⟩
    · exact ⟨s, hs, (Except.ok.inj h).symm⟩
    · cases hend

/-! ### What stands around it -/

/-- Events in front of the statement with the id: texts, ends, starts of elements that are
neither statements nor directives, and whole statements with another id. -/
inductive PassedOver (id : String) : List Event → Prop
  | nil : PassedOver id []
  | text (content : String) {next : List Event} : PassedOver id next →
      PassedOver id (.text content :: next)
  | finish (name : String) {next : List Event} : PassedOver id next →
      PassedOver id (.finish name :: next)
  | start {name : String} (attributes : Attributes) {next : List Event} :
      StatementKind.ofTag? name = none → DirectiveKind.ofTag? name = none →
      PassedOver id next → PassedOver id (.start name attributes :: next)
  | statement {name : String} {kind : StatementKind} {attributes : Attributes}
      {inner next : List Event} (closing : String) :
      StatementKind.ofTag? name = some kind → ("id", id) ∉ attributes → Balanced inner →
      PassedOver id next → PassedOver id (.start name attributes :: inner ++ .finish closing :: next)

/-- The reader comes out of what is passed over as it went in. -/
theorem PassedOver.result_eq {id : String} {before : List Event} (h : PassedOver id before)
    (rest : List Answer) :
    Reader.seeking.result id (before.map .ok ++ rest) = Reader.seeking.result id rest := by
  induction h with
  | nil => rfl
  | text content _ ih => exact (Reader.result_of_continue rfl).trans ih
  | finish name _ ih => exact (Reader.result_of_continue rfl).trans ih
  | start attributes hstatement hdirective _ ih =>
    exact (Reader.result_of_continue (Reader.step_seeking_grouping hstatement hdirective)).trans ih
  | @statement name kind attributes inner next closing hname hid hinner _ ih =>
    obtain ⟨f, hf⟩ := Reader.exists_forest hinner id
    have hevents : (Event.start name attributes :: inner ++ .finish closing :: next).map Except.ok ++
          rest =
        .ok (.start name attributes) ::
          (inner.map .ok ++ .ok (.finish closing) :: (next.map .ok ++ rest)) := by
      simp
    rw [hevents, Reader.result_of_continue (Reader.step_seeking_other hname hid), hf,
      Reader.result_append (Reader.after?_skipping f name 0)]
    exact (Reader.result_of_continue rfl).trans ih

/-- A query is compiled from its own statement: whatever is passed over in front of it, and
whatever the source would answer behind it. -/
theorem compile_ownStatement {id : String} {before : List Event} (hbefore : PassedOver id before)
    {name : String} {kind : StatementKind} (hname : StatementKind.ofTag? name = some kind)
    {attributes : Attributes} (hid : ("id", id) ∈ attributes) {inner : List Event}
    (hinner : Balanced inner) (closing : String) (rest : List Answer) (params : List Param) :
    let own : List Event := .start name attributes :: inner ++ [.finish closing]
    compile (.answering (before.map .ok ++ own.map .ok ++ rest)) id params =
      compile (.answering (own.map .ok)) id params := by
  intro own
  obtain ⟨f, hf⟩ := Reader.exists_forest hinner id
  have hread : ∀ answers, Reader.seeking.result id (own.map .ok ++ answers) =
      (Reader.inside kind (.start name attributes) []).result id
        (f.events.map .ok ++ .ok (.finish closing) :: answers) := by
    intro answers
    have hevents : own.map Except.ok ++ answers =
        .ok (.start name attributes) :: (inner.map .ok ++ .ok (.finish closing) :: answers) := by
      simp [own]
    rw [hevents, Reader.result_of_continue (Reader.step_seeking_wanted hname hid), hf]
  have halone := hread []
  rw [List.append_nil] at halone
  rw [compile_answering, compile_answering, List.append_assoc, hbefore.result_eq, hread, halone,
    Reader.result_finished]

/-- A statement with the id nested in one that is passed over, and a failure behind the wanted
one, change nothing. -/
theorem compile_ownStatement_amongOthers :
    compile
        (.answering
          (([.start "sqlMap" [], .start "update" [("id", "p")], .start "select" [("id", "q")],
              .text "SELECT 1", .finish "select", .finish "update", .text "between"].map .ok) ++
            ([.start "Select" [("id", "q")], .text "SELECT 2", .finish "Select"].map .ok) ++
            [.error .closed]))
        "q" [] =
      .ok ⟨⟨.statement .select, [("id", "q")], "SELECT 2", none, [], false⟩, []⟩ := by
  have hbefore : PassedOver "q"
      [.start "sqlMap" [], .start "update" [("id", "p")], .start "select" [("id", "q")],
        .text "SELECT 1", .finish "select", .finish "update", .text "between"] :=
    .start [] (by decide) (by decide)
      (.statement "update" (show StatementKind.ofTag? "update" = some .update by decide) (by decide)
        (.element "select" [("id", "q")] "select" (.text "SELECT 1" .nil) .nil)
        (.text "between" .nil))
  exact (compile_ownStatement hbefore (show StatementKind.ofTag? "Select" = some .select by decide) (by decide)
    (.text "SELECT 2" .nil) "Select" [.error .closed] []).trans (by decide +kernel)

end SqlMaps.Template
