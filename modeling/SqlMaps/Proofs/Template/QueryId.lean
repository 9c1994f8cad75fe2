import SqlMaps.Proofs.Template.Selection

/-! The id and the kind that a compiled query bears.

A statement is selected when any of its attributes is the wanted id, and the query has the
attributes of the statement, where the last one of a name counts. `compile_selected` says from
which element of the source a query comes, behind any number of statements that are passed over,
and that its kind and its attributes are those of the element. So its id is the wanted one where
that is the last id written, as it always is when only one is (`compile_otherId`). -/
namespace SqlMaps.Markup

/-- Of all attributes with the name, the last one has the value. -/
def Attributes.LastWritten (attributes : Attributes) (name value : String) : Prop :=
  ∃ front behind, attributes = front ++ (name, value) :: behind ∧ ∀ a ∈ behind, a.1 ≠ name

theorem Attributes.value?_eq_some_iff {attributes : Attributes} {name value : String} :
    attributes.value? name = some value ↔ attributes.LastWritten name value := by
  rw [value?, List.lookup_eq_some_iff]
  constructor
  · rintro ⟨behind, front, hsplit, hbehind⟩
    refine ⟨front.reverse, behind.reverse, ?_, fun a ha => ?_⟩
    · rw [← attributes.reverse_reverse, hsplit]
      simp
    · exact (bne_iff_ne.1 (hbehind a (List.mem_reverse.1 ha))).symm
  · rintro ⟨front, behind, rfl, hbehind⟩
    refine ⟨behind.reverse, front.reverse, by simp, fun a ha => ?_⟩
    exact bne_iff_ne.2 (hbehind a (List.mem_reverse.1 ha)).symm

/-- Where all attributes of a name have one value, that is the last one written. -/
theorem Attributes.lastWritten_of_unique {attributes : Attributes} {name value : String}
    (hmem : (name, value) ∈ attributes) (hunique : ∀ v, (name, v) ∈ attributes → v = value) :
    attributes.LastWritten name value := by
  induction attributes with
  | nil => cases hmem
  | cons a rest ih =>
    by_cases hrest : (name, value) ∈ rest
    · obtain ⟨front, behind, rfl, hbehind⟩ :=
        ih hrest fun v hv => hunique v (List.mem_cons_of_mem _ hv)
      exact ⟨a :: front, behind, rfl, hbehind⟩
    · obtain rfl : (name, value) = a := (List.mem_cons.1 hmem).resolve_right hrest
      refine ⟨[], rest, rfl, ?_⟩
      rintro ⟨_, v⟩ ha rfl
      exact hrest (hunique v (List.mem_cons_of_mem _ ha) ▸ ha)

end SqlMaps.Markup

namespace SqlMaps.Template
open Markup

namespace Reader
variable {id : String}

/-! ### What the reader has gone through -/

/-- Between statements, or that many elements deep in one with another id. -/
def outside (name : String) : Nat → Reader
  | 0 => .seeking
  | depth + 1 => .skipping name (depth + 1)

theorem step_skipping_finish (name closing : String) (depth : Nat) :
    (Reader.skipping name (depth + 1)).step id (.finish closing) =
      .continue (outside name depth) := by
  cases depth <;> rfl

/-- The reader gets out of an element behind whole elements and the end. -/
theorem exists_balanced {name : String} {depth : Nat} {answers : List Answer} {s : Statement}
    (h : (Reader.skipping name (depth + 1)).result id answers = .ok s) :
    ∃ inner closing rest, answers = inner.map .ok ++ .ok (.finish closing) :: rest ∧
      Balanced inner ∧ (outside name depth).result id rest = .ok s := by
  -- an element inside is two ends away: its own, and that of the one around it
  induction hn : answers.length using Nat.strongRecOn generalizing depth answers with
  | ind n ih =>
    subst hn
    cases answers with
    | nil => cases h
    | cons answer rest =>
      cases answer with
      | error cause => cases h
      | ok event =>
        cases event with
        | endOfStream => cases h
        | text content =>
          obtain ⟨inner, closing, rest', rfl, hinner, hrest⟩ :=
            ih rest.length (by simp) ((result_of_continue rfl).symm.trans h) rfl
          exact ⟨.text content :: inner, closing, rest', rfl, .text content hinner, hrest⟩
        | finish closing =>
          refine ⟨[], closing, rest, rfl, .nil, ?_⟩
          exact (result_of_continue (step_skipping_finish name closing depth)).symm.trans h
        | start child attributes =>
          obtain ⟨inner, closing, rest', rfl, hinner, hrest⟩ :=
            ih rest.length (by simp) ((result_of_continue rfl).symm.trans h) rfl
          obtain ⟨next, closing', rest'', rfl, hnext, hlast⟩ :=
            ih rest'.length (by simp; omega) hrest rfl
          refine ⟨.start child attributes :: inner ++ .finish closing :: next, closing', rest'',
            by simp, .element child attributes closing hinner hnext, hlast⟩

/-- In the wanted statement, with its kind and its attributes. -/
def InStatement (kind : StatementKind) (attributes : Attributes) : Reader → Prop
  | .inside kind' root _ => kind' = kind ∧ root.attributes = attributes
  | _ => False

section
variable {kind : StatementKind} {attributes : Attributes}

theorem inStatement_addInside {root : OpenPart} (hroot : root.attributes = attributes)
    (inner : List OpenPart) (f : Forest) :
    InStatement kind attributes (addInside kind root inner f) := by
  cases inner with
  | nil => exact ⟨rfl, hroot⟩
  | cons part outer => exact ⟨rfl, hroot⟩

/-- Every event leaves the reader in the statement, or ends it. -/
theorem InStatement.step {reader : Reader} (h : InStatement kind attributes reader)
    (id : String) (event : Event) :
    (∃ reader', reader.step id event = .continue reader' ∧ InStatement kind attributes reader') ∨
      (∃ body, reader.step id event = .done (.ok ⟨kind, attributes, body⟩)) ∨
      ∃ e, reader.step id event = .done (.error e) := by
  cases reader with
  | seeking => exact h.elim
  | skipping => exact h.elim
  | inside kind' root inner =>
    obtain ⟨rfl, hroot⟩ := h
    cases event with
    | start name a =>
      simp only [Reader.step, stepInside]
      cases misplaced? kind' root inner name with
      | some cause => exact .inr (.inr ⟨_, rfl⟩)
      | none => exact .inl ⟨_, rfl, rfl, hroot⟩
    | text content => exact .inl ⟨_, rfl, inStatement_addInside hroot inner _⟩
    | finish _ =>
      cases inner with
      | nil => exact .inr (.inl ⟨root.body, by rw [← hroot]; rfl⟩)
      | cons part outer => exact .inl ⟨_, rfl, inStatement_addInside hroot outer _⟩
    | endOfStream => exact .inr (.inr ⟨_, rfl⟩)

/-- The statement that is read has the kind and the attributes of the element it began with. -/
theorem InStatement.of_result {reader : Reader} (h : InStatement kind attributes reader)
    {answers : List Answer} {s : Statement} (hs : reader.result id answers = .ok s) :
    s.kind = kind ∧ s.attributes = attributes := by
  induction answers generalizing reader with
  | nil =>
    obtain ⟨e, he⟩ := reader.step_endOfStream id
    simp [result, run, he] at hs
  | cons answer rest ih =>
    cases answer with
    | error cause => cases hs
    | ok event =>
      rcases h.step id event with ⟨reader', hnext, h'⟩ | ⟨body, hdone⟩ | ⟨e, hdone⟩
      · exact ih h' ((result_of_continue hnext).symm.trans hs)
      · rw [result_of_done hdone] at hs
        cases hs
        exact ⟨rfl, rfl⟩
      · rw [result_of_done hdone] at hs
        cases hs

end

end Reader

/-! ### The selected element -/

/-- The first statement of the source that has the id among its attributes, with its kind and
its attributes. -/
def Source.Selects (source : Source) (id : String) (kind : StatementKind)
    (attributes : Attributes) : Prop :=
  ∃ before name behind,
    source = .answering (before.map .ok ++ .ok (.start name attributes) :: behind) ∧
      PassedOver id before ∧ StatementKind.ofTag? name = some kind ∧ ("id", id) ∈ attributes

/-- More may be passed over in front of what is. -/
theorem Source.Selects.passing {id : String} {kind : StatementKind} {attributes : Attributes}
    {answers : List Answer} (h : (Source.answering answers).Selects id kind attributes)
    (before : List Event)
    (hbefore : ∀ {es : List Event}, PassedOver id es → PassedOver id (before ++ es)) :
    (Source.answering (before.map .ok ++ answers)).Selects id kind attributes := by
  obtain ⟨es, name, behind, hanswers, hes, hname, hid⟩ := h
  cases hanswers
  exact ⟨before ++ es, name, behind, by simp, hbefore hes, hname, hid⟩

/-- What is read for an id is what the first statement with the id holds. -/
theorem selects_of_result {id : String} {answers : List Answer} {s : Statement}
    (h : Reader.seeking.result id answers = .ok s) :
    (Source.answering answers).Selects id s.kind s.attributes := by
  induction hn : answers.length using Nat.strongRecOn generalizing answers with
  | ind n ih =>
    subst hn
    cases answers with
    | nil => cases h
    | cons answer rest =>
      cases answer with
      | error cause => cases h
      | ok event =>
        cases event with
        | endOfStream => cases h
        | text content =>
          have hrest := ih rest.length (by simp) ((Reader.result_of_continue rfl).symm.trans h) rfl
          exact hrest.passing [.text content] (.text content)
        | finish name =>
          have hrest := ih rest.length (by simp) ((Reader.result_of_continue rfl).symm.trans h) rfl
          exact hrest.passing [.finish name] (.finish name)
        | start name a =>
          cases hname : StatementKind.ofTag? name with
          | some kind =>
            by_cases hid : ("id", id) ∈ a
            · rw [Reader.result_of_continue (Reader.step_seeking_wanted hname hid)] at h
              have hstart : Reader.InStatement kind a (.inside kind (.start name a) []) :=
                ⟨rfl, rfl⟩
              obtain ⟨hkind, hattributes⟩ := hstart.of_result h
              rw [hkind, hattributes]
              exact ⟨[], name, rest, rfl, .nil, hname, hid⟩
            · rw [Reader.result_of_continue (Reader.step_seeking_other hname hid)] at h
              obtain ⟨inner, closing, rest', rfl, hinner, hrest⟩ := Reader.exists_balanced h
              have hselects := ih rest'.length (by simp; omega) hrest rfl
              have := hselects.passing (.start name a :: inner ++ [.finish closing])
                fun hes => by simpa using PassedOver.statement closing hname hid hinner hes
              simpa using this
          | none =>
            cases hdirective : DirectiveKind.ofTag? name with
            | some directive =>
              rw [Reader.result_of_done (Reader.step_seeking_directive hname hdirective)] at h
              cases h
            | none =>
              rw [Reader.result_of_continue (Reader.step_seeking_grouping hname hdirective)] at h
              have hrest := ih rest.length (by simp) h rfl
              exact hrest.passing [.start name a] (.start a hname hdirective)

/-- A compiled query has the kind and the attributes of the first statement with the id, where
the last attribute of a name counts. Its id is the wanted one if no other is written behind it. -/
theorem compile_selected {source : Source} {id : String} {params : List Param}
    {query : CompiledQuery} (h : compile source id params = .ok query) :
    ∃ kind attributes, source.Selects id kind attributes ∧ query.root.kind = .statement kind ∧
      (∀ name value, query.attribute? name = some value ↔ attributes.LastWritten name value) ∧
      ((∀ value, ("id", value) ∈ attributes → value = id) → query.attribute? "id" = some id) := by
  obtain ⟨s, hs, rfl⟩ := compile_eq_ok_iff.1 h
  cases source with
  | unavailable cause => cases hs
  | answering answers =>
    have hread : Reader.seeking.result id answers = .ok s := by
      rw [Source.statement?] at hs
      cases hr : Reader.seeking.result id answers with
      | error e => simp [hr, Except.toOption] at hs
      | ok s' => simpa [hr, Except.toOption] using hs
    have hselects := selects_of_result hread
    have hvalue : ∀ name value, (s.compile (.ofList params)).attribute? name = some value ↔
        s.attributes.LastWritten name value := fun _ _ => Attributes.value?_eq_some_iff
    refine ⟨s.kind, s.attributes, hselects, rfl, hvalue, fun hunique => (hvalue _ _).2 ?_⟩
    obtain ⟨_, _, _, _, _, _, hid⟩ := hselects
    exact Attributes.lastWritten_of_unique hid hunique

/-- A statement with another id is passed over, with the element of the wanted id inside it. -/
theorem compile_selected_behindOther :
    let source := Source.ofEvents
      [.start "sqlMap" [], .start "update" [("id", "p")], .start "select" [("id", "q")],
        .text "SELECT 1", .finish "select", .finish "update",
        .start "Delete" [("id", "q"), ("note", "old"), ("note", "new")], .text "DELETE FROM t",
        .finish "Delete", .finish "sqlMap"]
    ∃ query kind attributes, compile source "q" [] = .ok query ∧
      source.Selects "q" kind attributes ∧ query.root.kind = .statement kind ∧
      (∀ name value, query.attribute? name = some value ↔ attributes.LastWritten name value) ∧
      ((∀ value, ("id", value) ∈ attributes → value = "q") → query.attribute? "id" = some "q") := by
  intro source
  have hcompile : compile source "q" [] =
      .ok ⟨⟨.statement .delete, [("id", "q"), ("note", "old"), ("note", "new")], "DELETE FROM t",
        none, [], false⟩, []⟩ := by
    decide +kernel
  obtain ⟨kind, attributes, hselected⟩ := compile_selected hcompile
  exact ⟨_, kind, attributes, hcompile, hselected⟩

/-- A statement with two ids is found under the first one, and the query bears the second, even
where another statement has the first one alone. -/
theorem compile_otherId :
    let source := Source.ofEvents
      [.start "select" [("id", "a"), ("id", "b")], .text "SELECT 1", .finish "select",
        .start "select" [("id", "a")], .text "SELECT 2", .finish "select"]
    ∃ query, compile source "a" [] = .ok query ∧ query.sql = "SELECT 1" ∧
      query.attribute? "id" = some "b" := by
  exact ⟨⟨⟨.statement .select, [("id", "a"), ("id", "b")], "SELECT 1", none, [], false⟩, []⟩,
    by decide +kernel, rfl, by decide +kernel⟩

end SqlMaps.Template
