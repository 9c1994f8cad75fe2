import SqlMaps.Proofs.Template.Page

/-! Readers of a template that go on alike.

`after?` is where the reader stands when some answers have been read and the statement is
not complete yet. Two readers are `Alike` when all they have read is the same but one body,
and the two bodies write the same. They stay so with every event (`Alike.step`), so
whatever comes they end with the same error, or with statements that show the same
(`result_alike`). -/
namespace SqlMaps.Template
open Markup

namespace Reader

/-- Where the reader stands behind the answers, unless they have decided the result. -/
def after? (id : String) : Reader → List Answer → Option Reader
  | reader, [] => some reader
  | _, .error _ :: _ => none
  | reader, .ok event :: rest =>
    match reader.step id event with
    | .done _ => none
    | .continue reader => after? id reader rest

section
variable {id : String} {reader : Reader}

theorem result_of_done {event : Event} {rest : List Answer} {r : Except CompileError Statement}
    (h : reader.step id event = .done r) : reader.result id (.ok event :: rest) = r := by
  simp only [result, run, h]

theorem result_of_continue {event : Event} {rest : List Answer} {reader' : Reader}
    (h : reader.step id event = .continue reader') :
    reader.result id (.ok event :: rest) = reader'.result id rest := by
  simp only [result, run, h]

/-- Behind answers that have not decided the result, reading goes on from where it stands. -/
theorem result_append {before : List Answer} {reader' : Reader}
    (h : reader.after? id before = some reader') (rest : List Answer) :
    reader.result id (before ++ rest) = reader'.result id rest := by
  induction before generalizing reader with
  | nil => cases h; rfl
  | cons answer before ih =>
    cases answer with
    | error => cases h
    | ok event =>
      simp only [after?] at h
      cases hs : reader.step id event with
      | done => simp [hs] at h
      | «continue» next =>
        simp only [hs] at h
        exact (result_of_continue hs).trans (ih h)

/-- Answers that have decided the result leave no say to those behind them. -/
theorem result_of_decided {before : List Answer} (h : reader.after? id before = none)
    (rest rest' : List Answer) :
    reader.result id (before ++ rest) = reader.result id (before ++ rest') := by
  induction before generalizing reader with
  | nil => cases h
  | cons answer before ih =>
    cases answer with
    | error => rfl
    | ok event =>
      simp only [after?] at h
      cases hs : reader.step id event with
      | done => simp only [List.cons_append, result_of_done hs]
      | «continue» next =>
        simp only [hs] at h
        simp only [List.cons_append, result_of_continue hs]
        exact ih h

theorem after?_append {before rest : List Answer} :
    reader.after? id (before ++ rest) = (reader.after? id before).bind (·.after? id rest) := by
  induction before generalizing reader with
  | nil => rfl
  | cons answer before ih =>
    cases answer with
    | error => rfl
    | ok event =>
      simp only [List.cons_append, after?]
      cases reader.step id event with
      | done => rfl
      | «continue» next => exact ih

end

/-! ### Trees as events -/

section
variable {kind : StatementKind} {root root' : OpenPart} {inner inner' : List OpenPart}

/-- Which elements may start hangs on the names of those that are open. -/
theorem misplaced?_congr (hroot : root.name = root'.name)
    (hinner : inner.map OpenPart.name = inner'.map OpenPart.name) (child : String) :
    misplaced? kind root inner child = misplaced? kind root' inner' child := by
  have howner : owner kind inner = owner kind inner' := by
    have hfind : ∀ parts : List OpenPart,
        parts.findSome? (fun part => DirectiveKind.ofTag? part.name) =
          (parts.map OpenPart.name).findSome? DirectiveKind.ofTag? := fun parts => by
      rw [List.findSome?_map]
      rfl
    simp only [owner, hfind, hinner]
  have hhead : (inner.head?.getD root).name = (inner'.head?.getD root').name := by
    cases inner with
    | nil =>
      cases inner' with
      | nil => exact hroot
      | cons => simp at hinner
    | cons part outer =>
      cases inner' with
      | nil => simp at hinner
      | cons part' outer' => exact (List.cons.inj hinner).1
  simp only [misplaced?, howner, hhead]

/-- Nothing in the tree stands where it may not, inside the elements of the statement. -/
def WellPlaced (kind : StatementKind) (root : OpenPart) (inner : List OpenPart) : Forest → Prop
  | .nil => True
  | .text _ next => WellPlaced kind root inner next
  | .element name a body next =>
    misplaced? kind root inner name = none ∧
      WellPlaced kind root (.start name a :: inner) body ∧ WellPlaced kind root inner next

theorem wellPlaced_congr (hroot : root.name = root'.name)
    (hinner : inner.map OpenPart.name = inner'.map OpenPart.name) {f : Forest}
    (h : WellPlaced kind root inner f) : WellPlaced kind root' inner' f := by
  induction f generalizing inner inner' with
  | nil => trivial
  | text _ _ ih => exact ih hinner h
  | element name a body next ihBody ihNext =>
    obtain ⟨hname, hbody, hnext⟩ := h
    refine ⟨(misplaced?_congr hroot hinner name).symm.trans hname, ?_, ihNext hinner hnext⟩
    exact ihBody (by simp [hinner]) hbody

theorem after?_start {id name : String} {a : Attributes} {rest : List Answer}
    (h : misplaced? kind root inner name = none) :
    after? id (.inside kind root inner) (.ok (.start name a) :: rest) =
      after? id (.inside kind root (.start name a :: inner)) rest := by
  simp only [after?, Reader.step, stepInside, h]

/-- Adding to the innermost element leaves the reader in the same elements, and what is
added next comes behind it. -/
theorem addInside_next (kind : StatementKind) (root : OpenPart) (inner : List OpenPart)
    (f : Forest) :
    ∃ root' inner', addInside kind root inner f = .inside kind root' inner' ∧
      root.name = root'.name ∧ inner.map OpenPart.name = inner'.map OpenPart.name ∧
      ∀ g, addInside kind root' inner' g = addInside kind root inner (f ++ g) := by
  cases inner with
  | nil =>
    refine ⟨root.add f, [], rfl, rfl, rfl, fun g => ?_⟩
    simp [addInside, OpenPart.add, Forest.append_assoc]
  | cons part outer =>
    refine ⟨root, part.add f :: outer, rfl, rfl, rfl, fun g => ?_⟩
    simp [addInside, OpenPart.add, Forest.append_assoc]

/-- A tree is read into the innermost element. -/
theorem after?_events (id : String) {f : Forest} (h : WellPlaced kind root inner f) :
    after? id (.inside kind root inner) (f.events.map .ok) = some (addInside kind root inner f) := by
  induction f generalizing root inner with
  | nil =>
    cases inner <;> simp [Forest.events, after?, addInside, OpenPart.add, Forest.append_nil]
  | text content next ih =>
    obtain ⟨root', inner', hadd, hroot, hinner, hnext⟩ :=
      addInside_next kind root inner (.text content .nil)
    have hevents : after? id (.inside kind root inner)
        ((Forest.text content next).events.map .ok) =
          after? id (addInside kind root inner (.text content .nil)) (next.events.map .ok) := rfl
    rw [hevents, hadd, ih (wellPlaced_congr hroot hinner h), hnext]
    rfl
  | element name a body next ihBody ihNext =>
    obtain ⟨hname, hbody, hrest⟩ := h
    obtain ⟨root', inner', hadd, hroot, hinner, hnext⟩ :=
      addInside_next kind root inner (.element name a body .nil)
    have hevents : (Forest.element name a body next).events.map Except.ok =
        (.ok (.start name a) :: (body.events.map .ok ++ .ok (.finish name) :: next.events.map .ok) :
          List Answer) := by
      simp [Forest.events]
    have hfinish : after? id (.inside kind root ((OpenPart.start name a).add body :: inner))
        (.ok (.finish name) :: next.events.map .ok) =
          after? id (addInside kind root inner (.element name a body .nil))
            (next.events.map .ok) := rfl
    rw [hevents, after?_start hname, after?_append, ihBody hbody]
    show after? id (.inside kind root ((OpenPart.start name a).add body :: inner)) _ = _
    rw [hfinish, hadd, ihNext (wellPlaced_congr hroot hinner hrest), hnext]
    rfl

end

/-! ### Bodies and their owners -/

/-- The part that directives and texts belong to inside the elements: its kind and its
attributes. -/
def ownerIn (kind : StatementKind) (root : OpenPart) : List OpenPart → Kind × Attributes
  | [] => (.statement kind, root.attributes)
  | part :: outer =>
    match DirectiveKind.ofTag? part.name with
    | some directive => (.directive directive, part.attributes)
    | none => ownerIn kind root outer

/-- Whether texts count inside the elements: not directly in one that only groups. -/
def ownTextIn : List OpenPart → Bool
  | [] => true
  | part :: _ => (DirectiveKind.ofTag? part.name).isSome

/-- In the innermost of the elements the two trees write the same. -/
def WritesAlikeIn (params : Params) (kind : StatementKind) (root : OpenPart)
    (parts : List OpenPart) (f g : Forest) : Prop :=
  WritesAlike params (ownerIn kind root parts).1 (ownerIn kind root parts).2 (ownTextIn parts) f g

/-- Whatever follows in it, a statement shows the same with the one body as with the other. -/
def SameStatement (params : Params) (kind : StatementKind) (attributes : Attributes)
    (f g : Forest) : Prop :=
  ∀ k, (Statement.compile ⟨kind, attributes, f ++ k⟩ params).shown =
    (Statement.compile ⟨kind, attributes, g ++ k⟩ params).shown

/-- Whatever follows in it, an element inside the others writes the same with the one body
as with the other. -/
def SameElement (params : Params) (kind : StatementKind) (root : OpenPart) (outer : List OpenPart)
    (name : String) (attributes : Attributes) (f g : Forest) : Prop :=
  ∀ k, WritesAlikeIn params kind root outer (.element name attributes (f ++ k) .nil)
    (.element name attributes (g ++ k) .nil)

/-- The two readers have read the same but for one body, which makes no difference. -/
inductive Alike (params : Params) : Reader → Reader → Prop where
  | same (reader : Reader) : Alike params reader reader
  /-- The body of the statement itself. -/
  | root {kind : StatementKind} {name : String} {attributes : Attributes} {f g : Forest}
      {inner : List OpenPart} : SameStatement params kind attributes f g →
      Alike params (.inside kind ⟨name, attributes, f⟩ inner) (.inside kind ⟨name, attributes, g⟩ inner)
  /-- The body of an element inside it. -/
  | part {kind : StatementKind} {root : OpenPart} (above : List OpenPart) {name : String}
      {attributes : Attributes} {f g : Forest} {outer : List OpenPart} :
      SameElement params kind root outer name attributes f g →
      Alike params (.inside kind root (above ++ ⟨name, attributes, f⟩ :: outer))
        (.inside kind root (above ++ ⟨name, attributes, g⟩ :: outer))

/-- Results that show the same. -/
inductive SameResult (params : Params) :
    Except CompileError Statement → Except CompileError Statement → Prop where
  | error (e : CompileError) : SameResult params (.error e) (.error e)
  | ok {s s' : Statement} : (s.compile params).shown = (s'.compile params).shown →
      SameResult params (.ok s) (.ok s')

theorem SameResult.refl (params : Params) (r : Except CompileError Statement) :
    SameResult params r r := by
  cases r with
  | error e => exact .error e
  | ok s => exact .ok rfl

/-- What one event leads alike readers to. -/
inductive SameProgress (params : Params) : Progress → Progress → Prop where
  | done {r r' : Except CompileError Statement} : SameResult params r r' →
      SameProgress params (.done r) (.done r')
  | continue {reader reader' : Reader} : Alike params reader reader' →
      SameProgress params (.continue reader) (.continue reader')

theorem SameProgress.refl (params : Params) (p : Progress) : SameProgress params p p := by
  cases p with
  | done r => exact .done (.refl params r)
  | «continue» reader => exact .continue (.same reader)

section
variable {params : Params} {kind : StatementKind} {root : OpenPart} {name : String}
  {attributes : Attributes} {f g : Forest} {outer : List OpenPart}

/-- Bodies that leave a statement's page the same show the same, whatever follows. -/
theorem sameStatement_of_page
    (h : Statement.page ⟨kind, attributes, f⟩ params = Statement.page ⟨kind, attributes, g⟩ params) :
    SameStatement params kind attributes f g := by
  intro k
  simp only [Statement.page] at h
  rw [Statement.shown_compile, Statement.shown_compile, Statement.page, Statement.page]
  simp only [write_append, h]

theorem SameStatement.append (h : SameStatement params kind attributes f g) (k : Forest) :
    SameStatement params kind attributes (f ++ k) (g ++ k) := by
  intro l
  simpa only [Forest.append_assoc] using h (k ++ l)

/-- Bodies that write the same make elements that write the same, whatever follows. -/
theorem sameElement_of_writes
    (h : WritesAlikeIn params kind root (.start name attributes :: outer) f g) :
    SameElement params kind root outer name attributes f g := by
  intro k
  refine writesAlike_element ?_
  have hk := WritesAlike.append_right h k
  simp only [ownerIn, ownTextIn, OpenPart.start] at hk
  cases hd : DirectiveKind.ofTag? name with
  | none => simpa [hd] using hk
  | some directive => simpa [hd] using hk

theorem SameElement.append (h : SameElement params kind root outer name attributes f g)
    (k : Forest) : SameElement params kind root outer name attributes (f ++ k) (g ++ k) := by
  intro l
  simpa only [Forest.append_assoc] using h (k ++ l)

/-- Trees that write the same may be added to what has been read. -/
theorem alike_addInside (h : WritesAlikeIn params kind root outer f g) :
    Alike params (addInside kind root outer f) (addInside kind root outer g) := by
  cases outer with
  | nil =>
    refine .root (sameStatement_of_page ?_)
    simp only [Statement.page, write_append]
    exact h _
  | cons part outer =>
    refine .part [] (sameElement_of_writes ?_)
    exact WritesAlike.append_left h part.body

/-- The element that ends is added to the one around it, where it writes the same. -/
theorem alike_addInside_close (h : SameElement params kind root outer name attributes f g) :
    Alike params (addInside kind root outer (OpenPart.close ⟨name, attributes, f⟩))
      (addInside kind root outer (OpenPart.close ⟨name, attributes, g⟩)) := by
  refine alike_addInside ?_
  simpa only [OpenPart.close, Forest.append_nil] using h .nil

/-- Every event takes alike readers to alike readers, or ends both alike. -/
theorem Alike.step {reader reader' : Reader} (h : Alike params reader reader') (id : String)
    (event : Event) : SameProgress params (reader.step id event) (reader'.step id event) := by
  cases h with
  | same => exact .refl params _
  | @root kind name attributes f g inner hbody =>
    cases event with
    | start child a =>
      have hname : OpenPart.name ⟨name, attributes, f⟩ = OpenPart.name ⟨name, attributes, g⟩ := rfl
      have hplace : misplaced? kind ⟨name, attributes, f⟩ inner child =
          misplaced? kind ⟨name, attributes, g⟩ inner child := misplaced?_congr hname rfl child
      simp only [Reader.step, stepInside, hplace]
      cases misplaced? kind ⟨name, attributes, g⟩ inner child with
      | some cause => exact .refl params _
      | none => exact .continue (.root hbody)
    | text content =>
      cases inner with
      | nil => exact .continue (.root (hbody.append _))
      | cons part outer => exact .continue (.root hbody)
    | finish _ =>
      cases inner with
      | nil => exact .done (.ok (by simpa only [Forest.append_nil] using hbody .nil))
      | cons part outer =>
        cases outer with
        | nil => exact .continue (.root (hbody.append _))
        | cons => exact .continue (.root hbody)
    | endOfStream => cases inner <;> exact .refl params _
  | @part kind root above name attributes f g outer hbody =>
    cases event with
    | start child a =>
      have hplace : misplaced? kind root (above ++ ⟨name, attributes, f⟩ :: outer) child =
          misplaced? kind root (above ++ ⟨name, attributes, g⟩ :: outer) child :=
        misplaced?_congr rfl (by simp) child
      simp only [Reader.step, stepInside, hplace]
      cases misplaced? kind root (above ++ ⟨name, attributes, g⟩ :: outer) child with
      | some cause => exact .refl params _
      | none => exact .continue (.part (.start child a :: above) hbody)
    | text content =>
      cases above with
      | nil => exact .continue (.part [] (hbody.append _))
      | cons part above =>
        exact .continue (.part (part.add (.text content .nil) :: above) hbody)
    | finish _ =>
      cases above with
      | nil => exact .continue (alike_addInside_close hbody)
      | cons part above =>
        cases above with
        | nil => exact .continue (.part [] (hbody.append _))
        | cons part' above =>
          exact .continue (.part (part'.add part.close :: above) hbody)
    | endOfStream =>
      cases above <;> exact .refl params _

/-- Alike readers end with results that show the same, whatever comes. -/
theorem result_alike {reader reader' : Reader} (h : Alike params reader reader') (id : String)
    (answers : List Answer) :
    SameResult params (reader.result id answers) (reader'.result id answers) := by
  induction answers generalizing reader reader' with
  | nil =>
    have hs := h.step id .endOfStream
    obtain ⟨e, he⟩ := reader.step_endOfStream id
    obtain ⟨e', he'⟩ := reader'.step_endOfStream id
    rw [he, he'] at hs
    cases hs with
    | done hr => simpa only [result, run, he, he'] using hr
  | cons answer rest ih =>
    cases answer with
    | error cause => exact .error _
    | ok event =>
      have hs := h.step id event
      generalize hr : reader.step id event = p, hr' : reader'.step id event = p' at hs
      cases hs with
      | done hsame => rwa [result_of_done hr, result_of_done hr']
      | «continue» hnext =>
        rw [result_of_continue hr, result_of_continue hr']
        exact ih hnext

end

end Reader

/-- What a caller can tell of a compilation: what the query shows, or the error. -/
def compileShown (source : Source) (id : String) (params : List Param) :
    Except CompileError Shown :=
  (compile source id params).map CompiledQuery.shown

theorem compileShown_answering (answers : List Answer) (id : String) (params : List Param) :
    compileShown (.answering answers) id params =
      (Reader.seeking.result id answers).map fun s => (s.compile (.ofList params)).shown := by
  rw [compileShown, compile_answering]
  cases Reader.seeking.result id answers <;> rfl

/-- The statement that is read from the source for the id. -/
def Source.statement? (id : String) : Source → Option Statement
  | .unavailable _ => none
  | .answering answers => (Reader.seeking.result id answers).toOption

/-- What a query is compiled from is the statement that is read. -/
theorem compile_eq_ok_iff {source : Source} {id : String} {params : List Param}
    {query : CompiledQuery} :
    compile source id params = .ok query ↔
      ∃ s, source.statement? id = some s ∧ s.compile (.ofList params) = query := by
  cases source with
  | unavailable cause => exact ⟨nofun, nofun⟩
  | answering answers =>
    rw [compile_answering, Source.statement?]
    cases Reader.seeking.result id answers with
    | error e => exact ⟨nofun, nofun⟩
    | ok s => simp [Except.map, Except.toOption]

theorem Reader.SameResult.map_shown {params : Params} {r r' : Except CompileError Statement}
    (h : SameResult params r r') :
    (r.map fun s => (s.compile params).shown) = r'.map fun s => (s.compile params).shown := by
  cases h with
  | error => rfl
  | ok hs => simp only [Except.map, hs]

end SqlMaps.Template
