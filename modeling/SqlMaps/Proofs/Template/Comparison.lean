import SqlMaps.Proofs.Template.Injection
import SqlMaps.Proofs.Template.Unmet

/-! What a comparison in a template compares.

Conditionals whose conditions give the same answer can stand for each other
(`compileShown_ok_iff_of_holds`): inside them nothing can tell which of the conditions was
asked. So the two comparisons with a bound text come down to what they compare, and that is not
the text: values are bound in the form that a placeholder puts between quotes, with every quote
doubled, and the comparison takes this form. `compile_comparesDoubled` is the whole rule. -/
namespace SqlMaps

/-- The text with every quote doubled, without the quotes around it. -/
def Text.Quoted.doubled (quote : Char) (s : String) : String :=
  String.ofList (double quote s.toList)

/-- Only text without the quote is its own doubled form. -/
theorem Text.Quoted.doubled_eq_self_iff {quote : Char} {s : String} :
    doubled quote s = s ↔ quote ∉ s.toList := by
  constructor
  · intro h hmem
    have hcount := count_double quote quote s.toList
    rw [← @String.toList_ofList (double quote s.toList)] at hcount
    change (doubled quote s).toList.count quote = _ at hcount
    rw [h, if_pos rfl] at hcount
    have hpos := List.count_pos_iff.2 hmem
    omega
  · intro h
    rw [doubled, double_of_not_mem h, String.ofList_toList]

namespace Template
open Markup

/-! ### Conditions that answer alike -/

section
variable {params : Params} {c c' : Condition} {a : Attributes}

/-- A body is written the same under either of two conditions that answer alike. -/
theorem write_of_holds (h : c.holds params a = c'.holds params a) (ownText : Bool) (f : Forest)
    (p : Page) :
    write params (.directive (.conditional c)) a ownText f p =
      write params (.directive (.conditional c')) a ownText f p := by
  induction f generalizing ownText p with
  | nil => rfl
  | text content next ih => simp only [write, addText_conditional, h, ih]
  | element name b inner next ihInner ihNext =>
    simp only [write]
    split
    · rw [ihInner, ihNext]
    · rw [ihNext]

theorem write_conditional_of_holds (h : c.holds params a = c'.holds params a) {kind : Kind}
    {attributes : Attributes} {ownText : Bool} (content : Forest) (p : Page) :
    write params kind attributes ownText (conditional c a content) p =
      write params kind attributes ownText (conditional c' a content) p := by
  simp [conditional, write, DirectiveKind.ofTag?_tag, Page.close, Rendering.merged,
    Rendering.opening, write_of_holds h, h]

end

namespace Reader
variable {kind : StatementKind} {root : OpenPart}

/-- Which elements may start inside a conditional does not hang on what it asks. -/
theorem misplaced?_conditional {c : Condition} (c' : Condition) {a : Attributes}
    {above outer : List OpenPart} {name : String}
    (h : misplaced? kind root (above ++ .start (DirectiveKind.conditional c).tag a :: outer) name =
      none) :
    misplaced? kind root (above ++ .start (DirectiveKind.conditional c').tag a :: outer) name =
      none := by
  revert h
  simp only [misplaced?, owner, List.findSome?_append, List.findSome?_cons, OpenPart.start,
    DirectiveKind.ofTag?_tag]
  cases DirectiveKind.ofTag? name with
  | none => simp
  | some directive =>
    cases directive <;> cases above.findSome? (fun part => DirectiveKind.ofTag? part.name) <;> simp

theorem wellPlaced_conditional {c : Condition} (c' : Condition) {a : Attributes}
    {above outer : List OpenPart} {f : Forest}
    (h : WellPlaced kind root (above ++ .start (DirectiveKind.conditional c).tag a :: outer) f) :
    WellPlaced kind root (above ++ .start (DirectiveKind.conditional c').tag a :: outer) f := by
  induction f generalizing above with
  | nil => trivial
  | text content next ih => exact ih h
  | element name b body next ihBody ihNext =>
    obtain ⟨hname, hbody, hnext⟩ := h
    exact ⟨misplaced?_conditional c' hname, @ihBody (.start name b :: above) hbody, ihNext hnext⟩

/-- What is legal as one conditional is legal as any other. -/
theorem wellPlaced_conditional_of_conditional {c : Condition} (c' : Condition) {a : Attributes}
    {inner : List OpenPart} {content : Forest}
    (h : WellPlaced kind root inner (conditional c a content)) :
    WellPlaced kind root inner (conditional c' a content) := by
  obtain ⟨-, hcontent, -⟩ := h
  refine ⟨?_, @wellPlaced_conditional kind root c c' a [] inner content hcontent, trivial⟩
  simp [misplaced?, DirectiveKind.ofTag?_tag]

end Reader

/-- Conditionals that answer alike compile to the same, anywhere in any template. -/
theorem compileShown_ok_iff_of_holds {id : String} {params : List Param} {c c' : Condition}
    {a : Attributes} (h : c.holds (.ofList params) a = c'.holds (.ofList params) a)
    (content : Forest) (before rest : List Answer) (shown : Shown) :
    compileShown (.answering (before ++ (conditional c a content).events.map .ok ++ rest)) id params =
        .ok shown ↔
      compileShown (.answering (before ++ (conditional c' a content).events.map .ok ++ rest)) id
        params = .ok shown :=
  ⟨compileShown_replaced (fun hlegal => Reader.wellPlaced_conditional_of_conditional c' hlegal)
      (fun _ _ _ p => write_conditional_of_holds h content p),
    compileShown_replaced (fun hlegal => Reader.wellPlaced_conditional_of_conditional c hlegal)
      (fun _ _ _ p => write_conditional_of_holds h.symm content p)⟩

/-! ### Comparing with a bound text -/

section
variable {params : List Param} {a : Attributes} {name c s : String}

/-- A bound text is present: of the two questions for that, the one holds. -/
theorem holds_present (hproperty : a.value? "property" = some name)
    (hgiven : Params.given params name = some (.text s)) :
    Condition.isNotNull.holds (.ofList params) a = true ∧
      Condition.isNull.holds (.ofList params) a = false := by
  simp [Condition.holds, Condition.holds.property, Params.isNull, Params.get?_ofList, hproperty,
    hgiven, Value.bound, Value.isNull]

/-- A bound text is compared by its doubled form. -/
theorem compared_text (hproperty : a.value? "property" = some name)
    (hgiven : Params.given params name = some (.text s)) :
    Condition.holds.compared (.ofList params) a = Text.Quoted.doubled '\'' s := by
  simp [Condition.holds.compared, Condition.holds.property, Params.comparisonText,
    Params.get?_ofList, hproperty, hgiven, Value.bound, Value.display, Text.Quoted.doubled]

/-- A comparison with a bound text is one with the text's doubled form, wherever the element
stands and whatever is in it. Where it comes out as the element asks, the template compiles as
if the element asked for the presence of the text only, which is there; elsewhere as if it asked
for its absence, and so to the same as without the element. The text itself would give the same
answer if and only if there is no quote in it, or it is compared with neither itself nor its
doubled form. -/
theorem compile_comparesDoubled (hproperty : a.value? "property" = some name)
    (hcompare : a.value? "compareValue" = some c)
    (hgiven : Params.given params name = some (.text s)) (id : String) (content : Forest)
    (before rest : List Answer) :
    let compiles (f : Forest) (shown : Shown) : Prop :=
      compileShown (.answering (before ++ f.events.map .ok ++ rest)) id params = .ok shown
    let included : Forest := conditional .isNotNull a content
    let leftOut : Forest := conditional .isNull a content
    let doubled : String := Text.Quoted.doubled '\'' s
    (∀ shown, compiles (conditional .isEqual a content) shown ↔
      compiles (if doubled = c then included else leftOut) shown) ∧
    (∀ shown, compiles (conditional .isNotEqual a content) shown ↔
      compiles (if doubled = c then leftOut else included) shown) ∧
    (∀ shown, compiles leftOut shown → compiles .nil shown) ∧
    ((doubled = c ↔ s = c) ↔ ('\'' ∈ s.toList → c ≠ s ∧ c ≠ doubled)) := by
  intro compiles included leftOut doubled
  have hequal : Condition.isEqual.holds (.ofList params) a = decide (c = doubled) := by
    simp [Condition.holds, hcompare, compared_text hproperty hgiven, doubled, beq_eq_decide]
  have hnotEqual : Condition.isNotEqual.holds (.ofList params) a = !decide (c = doubled) := by
    simp [Condition.holds, hcompare, compared_text hproperty hgiven, doubled, bne, beq_eq_decide]
  obtain ⟨hpresent, habsent⟩ := holds_present hproperty hgiven
  have hasks {condition condition' : Condition}
      (h : condition.holds (.ofList params) a = condition'.holds (.ofList params) a) :=
    @compileShown_ok_iff_of_holds id params condition condition' a h content before rest
  refine ⟨?_, ?_, fun shown h => ?_, ?_⟩
  · split
    case isTrue h => exact hasks (by simp [hequal, hpresent, h])
    case isFalse h => exact hasks (by simp [hequal, habsent, Ne.symm h])
  · split
    case isTrue h => exact hasks (by simp [hnotEqual, habsent, h])
    case isFalse h => exact hasks (by simp [hnotEqual, hpresent, Ne.symm h])
  · exact compileShown_replaced (f := .nil) (fun _ => trivial)
      (fun _ _ _ p => write_unmet habsent content p) h
  · have hself : doubled = s ↔ '\'' ∉ s.toList := Text.Quoted.doubled_eq_self_iff
    by_cases hquote : '\'' ∈ s.toList
    · have hdiffer : doubled ≠ s := fun h => hself.1 h hquote
      grind
    · simp [hquote, hself.2 hquote]

end

/-- `O'Brien` is equal to the text with two quotes. -/
theorem compile_comparesDoubled_twoQuotes :
    let a : Attributes := [("property", "name"), ("compareValue", "O''Brien")]
    let before : List Answer := [.ok (.start "select" [("id", "q")]), .ok (.text "SELECT a FROM t")]
    let piece := conditional .isEqual a (.text "WHERE b = 1" .nil)
    Params.given [⟨"name", .text "O'Brien"⟩] "name" = some (.text "O'Brien") ∧
      compileShown (.answering (before ++ piece.events.map .ok ++ [.ok (.finish "select")])) "q"
          [⟨"name", .text "O'Brien"⟩] =
        .ok ⟨"SELECT a FROM t\nWHERE b = 1", []⟩ := by
  intro a before piece
  have hgiven : Params.given [⟨"name", .text "O'Brien"⟩] "name" = some (.text "O'Brien") := by
    decide
  have hrule := compile_comparesDoubled (a := a) (c := "O''Brien") (by decide) (by decide) hgiven "q"
    (.text "WHERE b = 1" .nil) before [.ok (.finish "select")]
  refine ⟨hgiven, (hrule.1 _).2 ?_⟩
  rw [if_pos (by decide)]
  decide +kernel

/-- A text with a quote is not equal to itself. -/
theorem compile_differsFromItself :
    let around (condition : Condition) : Source :=
      .ofForest
        (.element "select" [("id", "q")]
          (.text "SELECT a FROM t"
            (conditional condition [("property", "name"), ("compareValue", "O'Brien")]
              (.text "WHERE b = 1" .nil)))
          .nil)
    compileShown (around .isEqual) "q" [⟨"name", .text "O'Brien"⟩] = .ok ⟨"SELECT a FROM t", []⟩ ∧
      compileShown (around .isNotEqual) "q" [⟨"name", .text "O'Brien"⟩] =
        .ok ⟨"SELECT a FROM t\nWHERE b = 1", []⟩ := by
  decide +kernel

end Template

end SqlMaps
