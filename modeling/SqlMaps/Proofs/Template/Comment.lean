import SqlMaps.Proofs.Markup.Accepted
import SqlMaps.Proofs.Template.Margin

/-! Comments in a template.

A comment in character data leaves two texts where there was one, and no text for a piece
that is all white space. Where texts are only appended to one another that makes no
difference; a conditional, though, writes every text it holds as a fragment, with a line
break and its prepend in front. `Hidden` lists the places where a comment shows nothing,
and `compile_withComment` says that there the template compiles to what it compiled to
before, to the same statement or the same error. -/
namespace SqlMaps.Template
open Markup

/-- What a caller can tell of compiling a query from the text of a template, or why the text
is no template. -/
def compileText (text : String) (id : String) (params : List Param) :
    Except Markup.Error (Except CompileError Shown) :=
  (Document.events text).map fun events => compileShown (.ofEvents events) id params

/-- What character data is read as: a text, or nothing if it is all white space. -/
def dataForest (content : List Char) : Forest :=
  if Text.allBlank content then .nil else .text (String.ofList (Entity.decode content)) .nil

theorem events_dataForest (content : List Char) :
    (dataForest content).events = Segment.dataEvents content := by
  rw [dataForest, Segment.dataEvents]
  split <;> rfl

theorem dataForest_of_blank {content : List Char} (h : Text.allBlank content = true) :
    dataForest content = .nil :=
  if_pos h

theorem dataForest_of_not_blank {content : List Char} (h : Text.allBlank content = false) :
    dataForest content = .text (String.ofList (Entity.decode content)) .nil :=
  if_neg (by simp [h])

theorem wellPlaced_dataForest (kind : StatementKind) (root : OpenPart) (inner : List OpenPart)
    (x y : List Char) : Reader.WellPlaced kind root inner (dataForest x ++ dataForest y) := by
  unfold dataForest
  split <;> split <;> trivial

/-- The data `x ++ y`, inside the elements and before the events `next`, is such that a
comment between `x` and `y` shows nothing. -/
inductive Hidden (params : Params) (kind : StatementKind) (root : OpenPart)
    (inner : List OpenPart) (next : List Event) (x y : List Char) : Prop where
  /-- Next to a tag. -/
  | edge : x = [] ∨ y = [] → Hidden params kind root inner next x y
  /-- Within white space between tags. -/
  | blank : Text.allBlank x = true → Text.allBlank y = true → Hidden params kind root inner next x y
  /-- In an element that only groups. -/
  | grouped : Reader.ownTextIn inner = false → Hidden params kind root inner next x y
  /-- In a conditional that does not hold. -/
  | unmet {condition : Condition} {attributes : Attributes} :
      Reader.ownerIn kind root inner = (.directive (.conditional condition), attributes) →
      condition.holds params attributes = false → Hidden params kind root inner next x y
  /-- Between two texts that are appended to a statement or a dynamic part. -/
  | appended : Text.allBlank x = false → Text.allBlank y = false →
      (Reader.ownerIn kind root inner).1 = .statement kind ∨
        (Reader.ownerIn kind root inner).1 = .directive .dynamic →
      Hidden params kind root inner next x y
  /-- Between two texts of a select key, and in no placeholder. -/
  | key : Text.allBlank x = false → Text.allBlank y = false →
      (Reader.ownerIn kind root inner).1 = .directive .selectKey →
      Piece.ofText (Entity.decode x ++ Entity.decode y) =
        Piece.ofText (Entity.decode x) ++ Piece.ofText (Entity.decode y) →
      Hidden params kind root inner next x y
  /-- At the end of a line, in a conditional without a prepend. -/
  | line {condition : Condition} {attributes : Attributes} {c : Char} :
      Text.allBlank x = false → Text.allBlank y = false →
      Reader.ownerIn kind root inner = (.directive (.conditional condition), attributes) →
      prependOf attributes = "" → (Entity.decode x).getLast? = some c → c = '\n' ∨ c = '\r' →
      Hidden params kind root inner next x y
  /-- In front of the first text of the statement. -/
  | leading : Text.allBlank x = true → inner = [] →
      (Statement.page ⟨kind, root.attributes, root.body⟩ params).own.text = "" →
      Hidden params kind root inner next x y
  /-- Behind the last text of the statement. -/
  | trailing {name : String} {more : List Event} : Text.allBlank y = true → inner = [] →
      next = .finish name :: more → Hidden params kind root inner next x y

section
variable {params : Params} {kind : StatementKind} {root : OpenPart} {inner : List OpenPart}
  {next : List Event} {x y : List Char}

theorem substitute_append {s t : List Char}
    (h : Piece.ofText (s ++ t) = Piece.ofText s ++ Piece.ofText t) :
    substitute params (String.ofList (s ++ t)) =
      substitute params (String.ofList s) ++ substitute params (String.ofList t) := by
  simp [substitute, h, String.ofList_append]

theorem allBlank_append (x y : List Char) :
    Text.allBlank (x ++ y) = (Text.allBlank x && Text.allBlank y) :=
  List.all_append

/-- Two texts are written like one if the two calls that add them do. -/
theorem writes_dataForest (href : ¬ Entity.Across x y) (hx : Text.allBlank x = false)
    (hy : Text.allBlank y = false)
    (h : ∀ p : Page, p.addText params (Reader.ownerIn kind root inner).1
        (Reader.ownerIn kind root inner).2
        (String.ofList (Entity.decode x) ++ String.ofList (Entity.decode y)) =
      (p.addText params (Reader.ownerIn kind root inner).1 (Reader.ownerIn kind root inner).2
        (String.ofList (Entity.decode x))).addText params (Reader.ownerIn kind root inner).1
          (Reader.ownerIn kind root inner).2 (String.ofList (Entity.decode y))) :
    Reader.WritesAlikeIn params kind root inner (dataForest (x ++ y))
      (dataForest x ++ dataForest y) := by
  have hxy : Text.allBlank (x ++ y) = false := by rw [allBlank_append, hx, Bool.false_and]
  intro p
  rw [dataForest_of_not_blank hxy, dataForest_of_not_blank hx, dataForest_of_not_blank hy,
    Entity.decode_append href, String.ofList_append]
  cases hown : Reader.ownTextIn inner with
  | false => rfl
  | true => exact h p

theorem dataForest_append_of_blank (hx : Text.allBlank x = true) (hy : Text.allBlank y = true) :
    dataForest (x ++ y) = dataForest x ++ dataForest y := by
  have hxy : Text.allBlank (x ++ y) = true := by rw [allBlank_append, hx, hy, Bool.true_and]
  rw [dataForest_of_blank hxy, dataForest_of_blank hx, dataForest_of_blank hy]
  rfl

/-- White space is decoded to itself. -/
theorem decode_of_blank {s : List Char} (h : Text.allBlank s = true) : Entity.decode s = s :=
  Entity.decode_eq_self fun hmem => absurd (List.all_eq_true.1 h _ hmem) (by decide)

/-- Behind the end of a line a fragment without a prepend is as good as more text. -/
theorem addFragment_line {d : Draft} {s t : String} {c : Char} (hs : s.toList.getLast? = some c)
    (hc : c = '\n' ∨ c = '\r') :
    (d.addFragment "" s).addFragment "" t = d.addFragment "" (s ++ t) := by
  have hend : (d.merge s).atLineStart = true := by
    rw [Draft.merge, Draft.atLineStart, Draft.add, String.toList_append, List.getLast?_append, hs]
    rcases hc with rfl | rfl <;> rfl
  have hmerge : (d.merge s).merge t = d.merge (s ++ t) := by
    rw [Draft.merge, Draft.breakLine, if_pos hend]
    simp [Draft.merge, Draft.add, String.append_assoc]
  simpa [Draft.addFragment] using hmerge

/-- In a conditional that does not hold, data is not written. -/
theorem write_dataForest_of_unmet {condition : Condition} {attributes : Attributes}
    (hholds : condition.holds params attributes = false) (ownText : Bool) (content : List Char)
    (p : Page) :
    write params (.directive (.conditional condition)) attributes ownText (dataForest content) p =
      p := by
  rw [dataForest]
  split
  · rfl
  · simp only [write, addText_conditional, hholds]
    split <;> rfl

/-- White space in front of the first text of the statement is trimmed with it. -/
theorem sameResult_leading (href : ¬ Entity.Across x y) (hx : Text.allBlank x = true)
    (hpage : (Statement.page ⟨kind, root.attributes, root.body⟩ params).own.text = "")
    (id : String) (answers : List Answer) :
    Reader.SameResult params
      ((Reader.addInside kind root [] (dataForest (x ++ y))).result id answers)
      ((Reader.addInside kind root [] (dataForest x ++ dataForest y)).result id answers) := by
  cases hy : Text.allBlank y with
  | true =>
    rw [dataForest_append_of_blank hx hy]
    exact .refl params _
  | false =>
    have hxy : Text.allBlank (x ++ y) = false := by rw [allBlank_append, hy, Bool.and_false]
    have hfront : Text.allBlank (String.ofList x).toList = true := by
      rwa [String.toList_ofList]
    have hne : String.ofList (Entity.decode y) ≠ "" := by
      have hy' : y ≠ [] := by
        rintro rfl
        cases hy
      simpa using Entity.decode_ne_nil hy'
    rw [dataForest_of_not_blank hxy, dataForest_of_blank hx, dataForest_of_not_blank hy,
      Entity.decode_append href, decode_of_blank hx, String.ofList_append, Forest.nil_append]
    exact Reader.result_alike (.root (sameStatement_leading hpage hfront hne)) id answers

/-- White space behind the last text of the statement is trimmed with it. -/
theorem sameResult_trailing (href : ¬ Entity.Across x y) (hy : Text.allBlank y = true)
    (id name : String) (answers : List Answer) :
    Reader.SameResult params
      ((Reader.addInside kind root [] (dataForest (x ++ y))).result id
        (.ok (.finish name) :: answers))
      ((Reader.addInside kind root [] (dataForest x ++ dataForest y)).result id
        (.ok (.finish name) :: answers)) := by
  cases hx : Text.allBlank x with
  | true =>
    rw [dataForest_append_of_blank hx hy]
    exact .refl params _
  | false =>
    have hxy : Text.allBlank (x ++ y) = false := by rw [allBlank_append, hx, Bool.false_and]
    have hback : Text.allBlank (String.ofList y).toList = true := by
      rwa [String.toList_ofList]
    rw [dataForest_of_not_blank hxy, dataForest_of_not_blank hx, dataForest_of_blank hy,
      Entity.decode_append href, decode_of_blank hy, String.ofList_append, Forest.append_nil]
    exact .ok (shown_trailing hback)

/-- With a comment in a place that hides it, the statement reads on to the same result. -/
theorem Hidden.sameResult (href : ¬ Entity.Across x y) (h : Hidden params kind root inner next x y)
    (id : String) :
    Reader.SameResult params
      ((Reader.addInside kind root inner (dataForest (x ++ y))).result id (next.map .ok))
      ((Reader.addInside kind root inner (dataForest x ++ dataForest y)).result id
        (next.map .ok)) := by
  have hwrites : Reader.WritesAlikeIn params kind root inner (dataForest (x ++ y))
      (dataForest x ++ dataForest y) → _ :=
    fun hw => Reader.result_alike (Reader.alike_addInside hw) id (next.map .ok)
  cases h with
  | edge h =>
    refine hwrites fun p => ?_
    rcases h with rfl | rfl
    · rfl
    · rw [dataForest_of_blank (show Text.allBlank [] = true from rfl), Forest.append_nil,
        List.append_nil]
  | blank hx hy =>
    rw [dataForest_append_of_blank hx hy]
    exact .refl params _
  | grouped hown =>
    refine hwrites fun p => ?_
    rw [hown]
    unfold dataForest
    split <;> split <;> split <;> rfl
  | unmet howner hholds =>
    refine hwrites fun p => ?_
    rw [howner]
    simp only [write_append, write_dataForest_of_unmet hholds]
  | appended hx hy howner =>
    refine hwrites (writes_dataForest href hx hy fun p => ?_)
    rcases howner with howner | howner <;>
      simp [howner, Page.addText, Rendering.addText, Page.rendering, Rendering.start, Draft.add,
        String.append_assoc]
  | key hx hy howner hpieces =>
    refine hwrites (writes_dataForest href hx hy fun p => ?_)
    have hsubstitute := @substitute_append params _ _ hpieces
    rw [String.ofList_append] at hsubstitute
    simp [howner, Page.addText, Rendering.addText, Page.rendering, Rendering.start, Draft.add,
      hsubstitute, String.append_assoc]
  | line hx hy howner hprepend hlast hc =>
    refine hwrites (writes_dataForest href hx hy fun p => ?_)
    rw [howner]
    simp only [addText_conditional, hprepend]
    split
    · have hline := addFragment_line (d := p.around)
        (s := String.ofList (Entity.decode x)) (t := String.ofList (Entity.decode y))
        (by simpa using hlast) hc
      simp [hline]
    · rfl
  | leading hx hinner hpage =>
    subst hinner
    exact sameResult_leading href hx hpage id _
  | trailing hy hinner hnext =>
    subst hinner hnext
    exact sameResult_trailing href hy id _ _

end

/-- Outside of the wanted statement no text is looked at. -/
theorem result_data {id : String} (reader : Reader)
    (h : ∀ content, reader.step id (.text content) = .continue reader) (content : List Char)
    (rest : List Answer) :
    reader.result id ((Segment.dataEvents content).map .ok ++ rest) = reader.result id rest := by
  rw [Segment.dataEvents]
  split
  · rfl
  · exact Reader.result_of_continue (h _)

/-- A comment in a place that hides it leaves the template one that is accepted, and the
query the same, or the error. -/
theorem compile_withComment {s : List Char} {es : List Event}
    (haccepted : Document.events (String.ofList s) = .ok es) {before after : List Segment}
    {x y : List Char} (hdata : Segment.ofText s = before ++ .gap (x ++ y) :: after)
    (href : ¬ Entity.Across x y) {text : List Char} (htext : ¬ ['-', '-'] <:+: text) {id : String}
    {params : List Param}
    (hplace : ∀ kind root inner,
      Reader.seeking.after? id ((before.flatMap Segment.events).map .ok) =
          some (.inside kind root inner) →
        Hidden (.ofList params) kind root inner (after.flatMap Segment.events) x y) :
    compileText (String.ofList (before.flatMap Segment.source ++ x ++
        (Segment.comment text).source ++ y ++ after.flatMap Segment.source)) id params =
      compileText (String.ofList s) id params := by
  obtain ⟨rfl, hcommented⟩ := Document.events_withComment haccepted hdata htext
  rw [compileText, compileText, haccepted, hcommented]
  refine congrArg Except.ok ?_
  simp only [Source.ofEvents, compileShown_answering, List.map_append, List.append_assoc]
  cases hread : Reader.seeking.after? id ((before.flatMap Segment.events).map .ok) with
  | none => rw [Reader.result_of_decided hread]
  | some reader =>
    rw [Reader.result_append hread, Reader.result_append hread]
    cases reader with
    | seeking => simp only [result_data .seeking fun _ => rfl]
    | skipping name depth => simp only [result_data (.skipping name depth) fun _ => rfl]
    | inside kind root inner =>
      have hpieces : ∀ f : Forest, Reader.WellPlaced kind root inner f → ∀ rest,
          (Reader.inside kind root inner).result id (f.events.map .ok ++ rest) =
            (Reader.addInside kind root inner f).result id rest :=
        fun f hf rest => Reader.result_append (Reader.after?_events id hf) rest
      have hone : Reader.WellPlaced kind root inner (dataForest (x ++ y)) := by
        unfold dataForest
        split <;> trivial
      rw [← List.append_assoc, ← List.map_append, ← events_dataForest, ← events_dataForest,
        ← Forest.events_append, ← events_dataForest, hpieces _ (wellPlaced_dataForest ..),
        hpieces _ hone]
      exact (((hplace kind root inner hread).sameResult href id).map_shown).symm

/-- A comment between two words of a statement. -/
theorem compile_withComment_inStatement :
    compileText "<select id='q'>SELECT a <!-- the key -->FROM t</select>" "q" [] =
      .ok (.ok ⟨"SELECT a FROM t", []⟩) := by
  have href : ¬ Entity.Across "SELECT a ".toList "FROM t".toList := by
    rintro ⟨before, v, w, after, hx, -⟩
    have hmem : '&' ∈ "SELECT a ".toList := by
      rw [hx]
      simp
    exact absurd hmem (by decide)
  have hplace : ∀ kind root inner,
      Reader.seeking.after? "q" [.ok (.start "select" [("id", "q")])] =
          some (.inside kind root inner) →
        Hidden (.ofList []) kind root inner [.finish "select"] "SELECT a ".toList
          "FROM t".toList := by
    intro kind root inner hread
    have hroot : Reader.seeking.after? "q" [.ok (.start "select" [("id", "q")])] =
        some (.inside .select (.start "select" [("id", "q")]) []) := by decide +kernel
    obtain ⟨rfl, rfl, rfl⟩ : StatementKind.select = kind ∧
        OpenPart.start "select" [("id", "q")] = root ∧ [] = inner := by
      simpa using hroot.symm.trans hread
    exact .appended (by decide) (by decide) (.inl rfl)
  have haccepted : Document.events (String.ofList "<select id='q'>SELECT a FROM t</select>".toList) =
      .ok [.start "select" [("id", "q")], .text "SELECT a FROM t", .finish "select"] := by
    decide +kernel
  have hdata : Segment.ofText "<select id='q'>SELECT a FROM t</select>".toList =
      [.token (.opening "select" [("id", "q")] false) "<select id='q'>".toList] ++
        .gap ("SELECT a ".toList ++ "FROM t".toList) ::
          [.token (.closing "select") "</select>".toList] := by
    decide +kernel
  have htext : ¬ ['-', '-'] <:+: " the key ".toList := by decide +kernel
  exact (compile_withComment haccepted hdata href htext hplace).trans (by decide +kernel)

/-- In a fragment a comment does show: what stands behind it is a fragment of its own, with
the prepend once more. -/
theorem compile_withComment_inFragment :
    compileText "<drop id='q'>c<isNull prepend='OR'>a = 1</isNull></drop>" "q" [] =
      .ok (.ok ⟨"c\nOR\na = 1", []⟩) ∧
    compileText "<drop id='q'>c<isNull prepend='OR'>a = <!-- x -->1</isNull></drop>" "q" [] =
      .ok (.ok ⟨"c\nOR\na = \nOR\n1", []⟩) := by
  decide +kernel

end SqlMaps.Template
