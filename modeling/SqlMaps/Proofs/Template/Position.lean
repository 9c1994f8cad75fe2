import SqlMaps.Proofs.Template.Reading

/-! What has been written where the reader stands.

Rendering can be followed while the statement is read: every element that is open has a page,
that of a directive starts behind what has been written around it, and an element that only
groups goes on with the page it stands in. `page` is the page of the innermost element. It is
all that matters from there on: readers inside the same elements that have the same pages stay
so with every event (`SamePages.step`) and end alike (`result_samePages`). So trees may stand
for each other that write the same on the page at hand, be it on no other one
(`result_addInside`). -/
namespace SqlMaps.Template
open Markup

namespace Reader

/-- The page of the innermost element. -/
def page (params : Params) (kind : StatementKind) (root : OpenPart) : List OpenPart → Page
  | [] => Statement.page ⟨kind, root.attributes, root.body⟩ params
  | part :: outer =>
    match DirectiveKind.ofTag? part.name with
    | some directive =>
      write params (.directive directive) part.attributes true part.body
        (.start (Rendering.opening directive part.attributes) (page params kind root outer).own)
    | none =>
      write params (ownerIn kind root outer).1 (ownerIn kind root outer).2 false part.body
        (page params kind root outer)

/-- The same elements are open in both, and each has the same page. -/
inductive SamePages (params : Params) (kind : StatementKind) :
    OpenPart → List OpenPart → OpenPart → List OpenPart → Prop
  | root {name : String} {attributes : Attributes} {f g : Forest} :
      page params kind ⟨name, attributes, f⟩ [] = page params kind ⟨name, attributes, g⟩ [] →
      SamePages params kind ⟨name, attributes, f⟩ [] ⟨name, attributes, g⟩ []
  | part {root root' : OpenPart} {outer outer' : List OpenPart} {name : String}
      {attributes : Attributes} {f g : Forest} : SamePages params kind root outer root' outer' →
      page params kind root (⟨name, attributes, f⟩ :: outer) =
        page params kind root' (⟨name, attributes, g⟩ :: outer') →
      SamePages params kind root (⟨name, attributes, f⟩ :: outer) root'
        (⟨name, attributes, g⟩ :: outer')

/-- What one event leads readers with the same pages to. -/
inductive SameNext (params : Params) (kind : StatementKind) : Progress → Progress → Prop
  | done {r r' : Except CompileError Statement} : SameResult params r r' →
      SameNext params kind (.done r) (.done r')
  | continue {root root' : OpenPart} {inner inner' : List OpenPart} :
      SamePages params kind root inner root' inner' →
      SameNext params kind (.continue (.inside kind root inner)) (.continue (.inside kind root' inner'))

section
variable {params : Params} {kind : StatementKind} {root root' : OpenPart}
  {inner inner' : List OpenPart}

theorem SamePages.refl (params : Params) (kind : StatementKind) (root : OpenPart)
    (inner : List OpenPart) : SamePages params kind root inner root inner := by
  induction inner with
  | nil => exact .root rfl
  | cons part outer ih => exact .part ih rfl

theorem SamePages.page_eq (h : SamePages params kind root inner root' inner') :
    page params kind root inner = page params kind root' inner' := by
  cases h <;> assumption

theorem SamePages.names (h : SamePages params kind root inner root' inner') :
    root.name = root'.name ∧ inner.map OpenPart.name = inner'.map OpenPart.name := by
  induction h with
  | root => exact ⟨rfl, rfl⟩
  | part _ _ ih => exact ⟨ih.1, congrArg (_ :: ·) ih.2⟩

theorem SamePages.owner (h : SamePages params kind root inner root' inner') :
    ownerIn kind root inner = ownerIn kind root' inner' := by
  induction h with
  | root => rfl
  | part _ _ ih => simp only [ownerIn, ih]

theorem SamePages.ownText (h : SamePages params kind root inner root' inner') :
    ownTextIn inner = ownTextIn inner' := by
  cases h <;> rfl

theorem SamePages.innermost (h : SamePages params kind root inner root' inner') :
    (inner.head?.getD root).name = (inner'.head?.getD root').name := by
  cases h <;> rfl

theorem SamePages.misplaced (h : SamePages params kind root inner root' inner') (name : String) :
    misplaced? kind root inner name = misplaced? kind root' inner' name :=
  misplaced?_congr h.names.1 h.names.2 name

/-- What is added to a statement is written on its page. -/
theorem page_add_root (root : OpenPart) (f : Forest) :
    page params kind (root.add f) [] =
      write params (.statement kind) root.attributes true f (page params kind root []) := by
  simp only [page, OpenPart.add, Statement.page, write_append]

/-- What is added to an element is written on its page. -/
theorem page_add_part (part : OpenPart) (outer : List OpenPart) (f : Forest) :
    page params kind root (part.add f :: outer) =
      write params (ownerIn kind root (part :: outer)).1 (ownerIn kind root (part :: outer)).2
        (ownTextIn (part :: outer)) f (page params kind root (part :: outer)) := by
  simp only [page, OpenPart.add, ownerIn, ownTextIn, write_append]
  cases DirectiveKind.ofTag? part.name <;> rfl

/-- An element is written on the page around it as it has been written on its own. -/
theorem write_close (part : OpenPart) (outer : List OpenPart) :
    write params (ownerIn kind root outer).1 (ownerIn kind root outer).2 (ownTextIn outer)
        part.close (page params kind root outer) =
      match DirectiveKind.ofTag? part.name with
      | some directive =>
        (page params kind root outer).close params directive part.attributes
          (page params kind root (part :: outer))
      | none => page params kind root (part :: outer) := by
  simp only [OpenPart.close, write, page]
  cases DirectiveKind.ofTag? part.name <;> rfl

/-- Trees that write the same may be added to what has been read. -/
theorem SamePages.add (h : SamePages params kind root inner root' inner') {f g : Forest}
    (hwrite : write params (ownerIn kind root inner).1 (ownerIn kind root inner).2
        (ownTextIn inner) f (page params kind root inner) =
      write params (ownerIn kind root' inner').1 (ownerIn kind root' inner').2
        (ownTextIn inner') g (page params kind root' inner')) :
    ∃ r i r' i', addInside kind root inner f = .inside kind r i ∧
      addInside kind root' inner' g = .inside kind r' i' ∧ SamePages params kind r i r' i' := by
  cases h with
  | @root name attributes body body' hpage =>
    refine ⟨_, [], _, [], rfl, rfl, .root ?_⟩
    exact (page_add_root ⟨name, attributes, body⟩ f).trans
      (hwrite.trans (page_add_root ⟨name, attributes, body'⟩ g).symm)
  | @part root root' outer outer' name attributes body body' houter hpage =>
    refine ⟨root, _, root', _, rfl, rfl, .part houter ?_⟩
    exact (page_add_part ⟨name, attributes, body⟩ outer f).trans
      (hwrite.trans (page_add_part ⟨name, attributes, body'⟩ outer' g).symm)

/-- An element that ends is written on the page around it, the same on both sides. -/
theorem SamePages.close {outer outer' : List OpenPart} {part part' : OpenPart}
    (h : SamePages params kind root (part :: outer) root' (part' :: outer')) :
    ∃ r i r' i', addInside kind root outer part.close = .inside kind r i ∧
      addInside kind root' outer' part'.close = .inside kind r' i' ∧
      SamePages params kind r i r' i' := by
  cases h with
  | @part _ _ _ _ name attributes f g houter hpage =>
    refine houter.add ?_
    rw [write_close, write_close, hpage, houter.page_eq]

/-- Every event takes readers with the same pages to such readers, or ends both alike. -/
theorem SamePages.step (h : SamePages params kind root inner root' inner') (id : String)
    (event : Event) :
    SameNext params kind ((Reader.inside kind root inner).step id event)
      ((Reader.inside kind root' inner').step id event) := by
  cases event with
  | start name a =>
    simp only [Reader.step, stepInside, h.misplaced name]
    cases misplaced? kind root' inner' name with
    | some cause => exact .done (.error _)
    | none =>
      refine .continue (.part h ?_)
      simp only [page, h.page_eq, h.owner]
  | text content =>
    obtain ⟨r, i, r', i', hadd, hadd', hsame⟩ := h.add (f := .text content .nil)
      (g := .text content .nil) (by rw [h.owner, h.ownText, h.page_eq])
    simp only [Reader.step, stepInside, hadd, hadd']
    exact .continue hsame
  | finish closing =>
    cases inner with
    | nil =>
      cases h with
      | root hpage =>
        refine .done (.ok ?_)
        simp only [page] at hpage
        rw [Statement.shown_compile, Statement.shown_compile, hpage]
    | cons part outer =>
      cases inner' with
      | nil => cases h
      | cons part' outer' =>
        obtain ⟨r, i, r', i', hadd, hadd', hsame⟩ := h.close
        simp only [Reader.step, stepInside, hadd, hadd']
        exact .continue hsame
  | endOfStream =>
    simp only [Reader.step, stepInside, h.innermost]
    exact .done (.error _)

/-- Readers with the same pages end alike, whatever comes. -/
theorem result_samePages (h : SamePages params kind root inner root' inner') (id : String)
    (answers : List Answer) :
    SameResult params ((Reader.inside kind root inner).result id answers)
      ((Reader.inside kind root' inner').result id answers) := by
  induction answers generalizing root inner root' inner' with
  | nil =>
    have hended := h.step id .endOfStream
    simp only [Reader.step, stepInside] at hended
    cases hended with
    | done hsame => exact hsame
  | cons answer rest ih =>
    cases answer with
    | error cause => exact .error _
    | ok event =>
      have hnext := h.step id event
      generalize hp : (Reader.inside kind root inner).step id event = p,
        hp' : (Reader.inside kind root' inner').step id event = p' at hnext
      cases hnext with
      | done hsame => rwa [result_of_done hp, result_of_done hp']
      | «continue» hpages =>
        rw [result_of_continue hp, result_of_continue hp']
        exact ih hpages

/-- Where two trees write the same on the page at hand, reading ends alike behind both. -/
theorem result_addInside {f g : Forest}
    (h : write params (ownerIn kind root inner).1 (ownerIn kind root inner).2 (ownTextIn inner) f
        (page params kind root inner) =
      write params (ownerIn kind root inner).1 (ownerIn kind root inner).2 (ownTextIn inner) g
        (page params kind root inner)) (id : String) (answers : List Answer) :
    SameResult params ((addInside kind root inner f).result id answers)
      ((addInside kind root inner g).result id answers) := by
  obtain ⟨r, i, r', i', hadd, hadd', hsame⟩ := (SamePages.refl params kind root inner).add h
  rw [hadd, hadd']
  exact result_samePages hsame id answers

end

end Reader

end SqlMaps.Template
