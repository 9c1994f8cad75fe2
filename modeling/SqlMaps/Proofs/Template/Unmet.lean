import SqlMaps.Proofs.Template.Around
import SqlMaps.Proofs.Template.Selection

/-! Conditionals that do not hold.

What is nested in a conditional writes to the conditional's own draft, and with the
conditional that draft is given up. So where the condition does not hold the element writes
nothing at all, whatever is in it (`write_unmet`), and a template that compiles with it
compiles to the same without it (`compile_withoutUnmet`). -/
namespace SqlMaps.Markup

/-- The second forest is the first with one occurrence of the piece left out. -/
inductive Forest.Without (piece : Forest) : Forest → Forest → Prop
  | here (next : Forest) : Without piece (piece ++ next) next
  | text (content : String) {f g : Forest} : Without piece f g →
      Without piece (.text content f) (.text content g)
  | inner (name : String) (attributes : Attributes) (next : Forest) {f g : Forest} :
      Without piece f g →
      Without piece (.element name attributes f next) (.element name attributes g next)
  | next (name : String) (attributes : Attributes) (inner : Forest) {f g : Forest} :
      Without piece f g →
      Without piece (.element name attributes inner f) (.element name attributes inner g)

/-- The events of the piece stand together among those of the tree. -/
theorem Forest.Without.events_eq {piece f g : Forest} (h : Without piece f g) :
    ∃ before rest, f.events = before ++ piece.events ++ rest ∧ g.events = before ++ rest := by
  induction h with
  | here next => exact ⟨[], next.events, by simp [events_append], rfl⟩
  | text content _ ih =>
    obtain ⟨before, rest, hf, hg⟩ := ih
    exact ⟨.text content :: before, rest, by simp [events, hf], by simp [events, hg]⟩
  | inner name attributes next _ ih =>
    obtain ⟨before, rest, hf, hg⟩ := ih
    exact ⟨.start name attributes :: before, rest ++ .finish name :: next.events,
      by simp [events, hf], by simp [events, hg]⟩
  | next name attributes inner _ ih =>
    obtain ⟨before, rest, hf, hg⟩ := ih
    exact ⟨.start name attributes :: inner.events ++ .finish name :: before, rest,
      by simp [events, hf], by simp [events, hg]⟩

end SqlMaps.Markup

namespace SqlMaps.Template
open Markup

/-- An element that asks something of a bound value, with what stands in it. -/
def conditional (condition : Condition) (attributes : Attributes) (content : Forest) : Forest :=
  .element (DirectiveKind.conditional condition).tag attributes content .nil

/-- A conditional that does not hold writes nothing. -/
theorem write_unmet {params : Params} {condition : Condition} {a : Attributes}
    (h : condition.holds params a = false) (content : Forest) {kind : Kind}
    {attributes : Attributes} {ownText : Bool} (p : Page) :
    write params kind attributes ownText (conditional condition a content) p = p := by
  have haround : (write params (.directive (.conditional condition)) a true content
      (.start (Rendering.opening (.conditional condition) a) p.own)).around = p.own := by
    rw [around_write, textsAround_of_unmet h]
    rfl
  simp [conditional, write, DirectiveKind.ofTag?_tag, Page.close, Page.rendering, Rendering.start,
    Rendering.merged, h, haround]

namespace Reader
variable {id : String}

/-- A reader in a statement with another id is inside at least one element. -/
def Deep : Reader → Prop
  | .skipping _ depth => 0 < depth
  | _ => True

theorem deep_of_step {reader reader' : Reader} {event : Event} (h : reader.Deep)
    (hstep : reader.step id event = .continue reader') : reader'.Deep := by
  rcases reader with _ | ⟨name, depth⟩ | ⟨kind, root, inner⟩
  · cases event with
    | start name a =>
      simp only [step, stepSeeking] at hstep
      split at hstep
      · split at hstep <;> cases hstep <;> simp [Deep]
      · split at hstep <;> cases hstep
        trivial
    | text => cases hstep; trivial
    | finish => cases hstep; trivial
    | endOfStream => cases hstep
  · cases event with
    | start => cases hstep; simp [Deep]
    | text => cases hstep; exact h
    | finish =>
      cases hstep
      split
      · trivial
      · simp only [Deep]
        omega
    | endOfStream => cases hstep
  · cases event with
    | start name a =>
      simp only [step, stepInside] at hstep
      split at hstep <;> cases hstep
      trivial
    | text => cases inner <;> cases hstep <;> trivial
    | finish => rcases inner with _ | ⟨part, _ | _⟩ <;> cases hstep <;> trivial
    | endOfStream => cases hstep

theorem deep_of_after? {reader reader' : Reader} {answers : List Answer} (h : reader.Deep)
    (hread : reader.after? id answers = some reader') : reader'.Deep := by
  induction answers generalizing reader with
  | nil => cases hread; exact h
  | cons answer rest ih =>
    cases answer with
    | error => cases hread
    | ok event =>
      simp only [after?] at hread
      cases hs : reader.step id event with
      | done => simp [hs] at hread
      | «continue» next =>
        simp only [hs] at hread
        exact ih (deep_of_step h hs) hread

end Reader

theorem statementKind_of_conditional (condition : Condition) :
    StatementKind.ofTag? (DirectiveKind.conditional condition).tag = none := by
  cases condition <;> rfl

/-- Wherever answers lead, another tree may follow them in the place of one that is not refused
there, if it leads on alike between statements, is legal wherever the other is, and writes the
same. -/
theorem result_exchanged {id : String} {params : Params} {f g : Forest}
    (hseeking : ∀ (rest : List Answer) {s : Statement},
      Reader.seeking.result id (f.events.map .ok ++ rest) = .ok s →
      Reader.SameResult params (.ok s) (Reader.seeking.result id (g.events.map .ok ++ rest)))
    (hplaced : ∀ {kind root inner}, Reader.WellPlaced kind root inner f →
      Reader.WellPlaced kind root inner g)
    (hwrite : ∀ kind attributes ownText, WritesAlike params kind attributes ownText f g)
    (before rest : List Answer) {s : Statement}
    (h : Reader.seeking.result id (before ++ f.events.map .ok ++ rest) = .ok s) :
    Reader.SameResult params (.ok s)
      (Reader.seeking.result id (before ++ g.events.map .ok ++ rest)) := by
  rw [List.append_assoc] at h ⊢
  cases hread : Reader.seeking.after? id before with
  | none =>
    rw [← h, Reader.result_of_decided hread]
    exact .refl params _
  | some reader =>
    rw [Reader.result_append hread] at h ⊢
    rcases reader with _ | ⟨name, depth⟩ | ⟨kind, root, inner⟩
    · exact hseeking rest h
    · have hdeep : 0 < depth := @Reader.deep_of_after? id .seeking _ before trivial hread
      obtain ⟨k, rfl⟩ : ∃ k, depth = k + 1 := ⟨depth - 1, by omega⟩
      rw [Reader.result_append (Reader.after?_skipping _ name k)] at h ⊢
      rw [h]
      exact .refl params _
    · rcases @Reader.wellPlaced_or_refused kind root inner id f with hlegal | ⟨e, he⟩
      · rw [Reader.result_append (Reader.after?_events id hlegal)] at h
        rw [Reader.result_append (Reader.after?_events id (hplaced hlegal)), ← h]
        exact Reader.result_alike (Reader.alike_addInside (hwrite _ _ _)) id rest
      · rw [he] at h
        cases h

/-- A template that compiles shows the same with the other tree in the place of the one. -/
theorem compileShown_exchanged {id : String} {params : List Param} {f g : Forest}
    (hseeking : ∀ (rest : List Answer) {s : Statement},
      Reader.seeking.result id (f.events.map .ok ++ rest) = .ok s →
      Reader.SameResult (.ofList params) (.ok s)
        (Reader.seeking.result id (g.events.map .ok ++ rest)))
    (hplaced : ∀ {kind root inner}, Reader.WellPlaced kind root inner f →
      Reader.WellPlaced kind root inner g)
    (hwrite : ∀ kind attributes ownText, WritesAlike (.ofList params) kind attributes ownText f g)
    {before rest : List Answer} {shown : Shown}
    (h : compileShown (.answering (before ++ f.events.map .ok ++ rest)) id params = .ok shown) :
    compileShown (.answering (before ++ g.events.map .ok ++ rest)) id params = .ok shown := by
  rw [compileShown_answering] at h ⊢
  generalize hr : Reader.seeking.result id (before ++ f.events.map .ok ++ rest) = r at h
  cases r with
  | error e => cases h
  | ok s => rw [← h, ← (result_exchanged hseeking hplaced hwrite before rest hr).map_shown]

/-- Between statements a conditional is refused. -/
theorem result_seeking_conditional {id : String} {condition : Condition} {a : Attributes}
    {content : Forest} {rest : List Answer} {s : Statement} :
    Reader.seeking.result id ((conditional condition a content).events.map .ok ++ rest) ≠ .ok s := by
  intro h
  have hrefused : Reader.seeking.step id (.start (DirectiveKind.conditional condition).tag a) = _ :=
    Reader.step_seeking_directive (statementKind_of_conditional condition)
      (DirectiveKind.ofTag?_tag _)
  have hread : Reader.seeking.result id
      ((conditional condition a content).events.map .ok ++ rest) = _ :=
    Reader.result_of_done hrefused
  rw [hread] at h
  cases h

/-- A template that compiles shows the same with another tree in the place of a conditional, if
the tree is legal wherever the conditional is and writes the same. -/
theorem compileShown_replaced {id : String} {params : List Param} {condition : Condition}
    {a : Attributes} {content f : Forest}
    (hplaced : ∀ {kind root inner}, Reader.WellPlaced kind root inner (conditional condition a content) →
      Reader.WellPlaced kind root inner f)
    (hwrite : ∀ kind attributes ownText,
      WritesAlike (.ofList params) kind attributes ownText (conditional condition a content) f)
    {before rest : List Answer} {shown : Shown}
    (h : compileShown (.answering
      (before ++ (conditional condition a content).events.map .ok ++ rest)) id params = .ok shown) :
    compileShown (.answering (before ++ f.events.map .ok ++ rest)) id params = .ok shown :=
  compileShown_exchanged (fun _ _ hs => absurd hs result_seeking_conditional) hplaced hwrite h

/-- Wherever answers lead, a conditional that does not hold may follow them or not, if it is
not refused there. -/
theorem result_unmet {id : String} {params : Params} {condition : Condition} {a : Attributes}
    (hunmet : condition.holds params a = false) (content : Forest) (before rest : List Answer)
    {s : Statement}
    (h : Reader.seeking.result id
      (before ++ (conditional condition a content).events.map .ok ++ rest) = .ok s) :
    Reader.SameResult params (.ok s) (Reader.seeking.result id (before ++ rest)) := by
  have hnothing := result_exchanged (g := .nil)
    (fun _ _ hs => absurd hs result_seeking_conditional) (fun _ => trivial)
    (fun _ _ _ p => write_unmet hunmet content p) before rest h
  simpa [Forest.events] using hnothing

/-- A template that compiles shows the same without a conditional that does not hold, at
whatever depth the conditional stands and whatever stands in it. -/
theorem compile_withoutUnmet {id : String} {params : List Param} {condition : Condition}
    {attributes : Attributes} (hunmet : condition.holds (.ofList params) attributes = false)
    {content tree tree' : Forest}
    (htree : Forest.Without (conditional condition attributes content) tree tree') {shown : Shown}
    (h : compileShown (.ofForest tree) id params = .ok shown) :
    compileShown (.ofForest tree') id params = .ok shown := by
  obtain ⟨before, rest, hevents, hevents'⟩ := htree.events_eq
  rw [Source.ofForest, Source.ofEvents, hevents, compileShown_answering, List.map_append,
    List.map_append] at h
  rw [Source.ofForest, Source.ofEvents, hevents', compileShown_answering, List.map_append]
  generalize hr : Reader.seeking.result id (before.map Except.ok ++
    (conditional condition attributes content).events.map .ok ++ rest.map .ok) = r at h
  cases r with
  | error e => cases h
  | ok s => rw [← h, ← (result_unmet hunmet content _ _ hr).map_shown]

/-- A conditional that does not hold in front of one that does, with a dynamic part and a
conditional that holds inside it. -/
theorem compile_withoutUnmet_nested :
    let around (piece : Forest) : Forest :=
      .element "select" [("id", "q")]
        (.text "SELECT a FROM t"
          (.element "dynamic" [("prepend", "WHERE")]
            (piece ++ .element "isNotNull" [("property", "x"), ("prepend", "AND")]
              (.text "x = #(x)#" .nil) .nil)
            .nil))
        .nil
    let unmet := conditional .isNull [("property", "x"), ("prepend", "AND")]
      (.text "x IS NULL"
        (.element "dynamic" [("prepend", "OR")]
          (.element "isNotNull" [("property", "x")] (.text "y = 2" .nil) .nil) .nil))
    compileShown (.ofForest (around unmet)) "q" [⟨"x", .integer 1⟩] =
        .ok ⟨"SELECT a FROM t\nWHERE\nx = 1", []⟩ ∧
      compileShown (.ofForest (around .nil)) "q" [⟨"x", .integer 1⟩] =
        .ok ⟨"SELECT a FROM t\nWHERE\nx = 1", []⟩ := by
  intro around unmet
  have hunmet : Condition.isNull.holds (.ofList [⟨"x", .integer 1⟩])
      [("property", "x"), ("prepend", "AND")] = false := by decide
  have htree : Forest.Without unmet (around unmet) (around .nil) :=
    .inner _ _ _ (.text _ (.inner _ _ _ (.here _)))
  have h : compileShown (.ofForest (around unmet)) "q" [⟨"x", .integer 1⟩] =
      .ok ⟨"SELECT a FROM t\nWHERE\nx = 1", []⟩ := by decide +kernel
  exact ⟨h, compile_withoutUnmet hunmet htree h⟩

end SqlMaps.Template
