import Mathlib.Algebra.Order.BigOperators.Group.List
import Mathlib.Algebra.Order.Group.Nat
import SqlMaps.Proofs.Number.RealReading
import SqlMaps.Proofs.Template.Scanning
import SqlMaps.Proofs.Value.Characters

/-! Substituting a second time.

One substitution looks at nothing that it has inserted, but a second one scans the text that the
first has made, and there a placeholder can begin with what stood in front of an inserted value and
end with what stood behind it. A substitution that takes out a bound placeholder leaves fewer `#`
than it found, so a text stays as it is only if no bound placeholder is in it
(`substitute_eq_self_iff`). None is there after the first substitution where every `#(` of the text
begins a placeholder (`OpensOnlyPlaceholders`): then the second scan finds the pieces of the first,
filled (`ofText_filled`). `substitute_again` puts both together. -/
namespace SqlMaps.Template
namespace Piece

/-! ### Texts that stay as they are -/

/-- A piece that is filled holds no more marks than before, and fewer if it was bound. -/
theorem count_fill {params : Params} (hparams : InsertsNoMarks params) (p : Piece) :
    (fill params p).count '#' ≤ (source p).count '#' ∧
      ∀ name v, p = .placeholder name → params.get? (String.ofList name) = some v →
        (fill params p).count '#' < (source p).count '#' := by
  cases p with
  | char c => exact ⟨le_rfl, fun _ _ h => nomatch h⟩
  | placeholder name =>
    cases hbound : params.get? (String.ofList name) with
    | none =>
      refine ⟨by simp [fill, hbound], ?_⟩
      rintro _ v ⟨⟩ hv
      rw [hbound] at hv
      cases hv
    | some v =>
      have hnone : (fill params (.placeholder name)).count '#' = 0 := by
        simp only [fill, hbound]
        exact List.count_eq_zero.2 (hparams _ v hbound)
      have hmark : 0 < (source (.placeholder name)).count '#' :=
        List.count_pos_iff.2 List.mem_cons_self
      exact ⟨hnone ▸ Nat.zero_le _, fun _ _ _ _ => hnone ▸ hmark⟩

/-- Pieces without a bound placeholder are filled with themselves. -/
theorem fill_eq_source {params : Params} {p : Piece}
    (h : ∀ name, p.name? = some name → params.get? name = none) : fill params p = source p := by
  cases p with
  | char c => rfl
  | placeholder name => simp [fill, h _ rfl]

end Piece

theorem mem_placeholders_iff {text name : String} :
    name ∈ placeholders text ↔ .placeholder name.toList ∈ Piece.ofText text.toList := by
  rw [placeholders, List.mem_filterMap]
  constructor
  · rintro ⟨p, hp, hname⟩
    cases p with
    | char c => cases hname
    | placeholder cs =>
      obtain rfl : String.ofList cs = name := Option.some.inj hname
      rwa [String.toList_ofList]
  · exact fun h => ⟨_, h, congrArg some String.ofList_toList⟩

/-- A substitution leaves a text as it is exactly if no placeholder in it is bound. -/
theorem substitute_eq_self_iff {params : Params} (hparams : InsertsNoMarks params) (text : String) :
    substitute params text = text ↔ ∀ name ∈ placeholders text, params.get? name = none := by
  constructor
  · intro hself name hname
    by_contra hbound
    obtain ⟨v, hv⟩ := Option.ne_none_iff_exists'.1 hbound
    have hfewer : (substitute params text).toList.count '#' < text.toList.count '#' := by
      conv_rhs => rw [← Piece.flatMap_source_ofText text.toList]
      rw [substitute, String.toList_ofList, List.count_flatMap, List.count_flatMap]
      refine List.sum_lt_sum _ _ (fun p _ => (Piece.count_fill hparams p).1)
        ⟨_, mem_placeholders_iff.1 hname, ?_⟩
      exact (Piece.count_fill hparams _).2 _ v rfl (by rwa [String.ofList_toList])
    rw [hself] at hfewer
    exact lt_irrefl _ hfewer
  · intro hfree
    have hfill : (Piece.ofText text.toList).flatMap (Piece.fill params) =
        (Piece.ofText text.toList).flatMap Piece.source :=
      List.flatMap_congr fun p hp => Piece.fill_eq_source fun name hname =>
        hfree name (List.mem_filterMap.2 ⟨p, hp, hname⟩)
    rw [substitute, hfill, Piece.flatMap_source_ofText, String.ofList_toList]

/-- No bound value has a `#` if none of the values given has one. -/
theorem InsertsNoMarks.of_entries {params : Params}
    (h : ∀ entry ∈ params.entries, '#' ∉ Piece.inserted entry.2) : InsertsNoMarks params := by
  intro name v hv
  obtain ⟨front, back, hentries, -⟩ := List.lookup_eq_some_iff.1 hv
  exact h (name, v) (List.mem_reverse.1 (hentries ▸ List.mem_append_right _ List.mem_cons_self))

/-! ### The second scan -/

/-- Every `#(` of the text begins a placeholder. -/
def OpensOnlyPlaceholders (text : String) : Prop :=
  ¬ [Piece.char '#', .char '('] <:+: Piece.ofText text.toList

instance (text : String) : Decidable (OpensOnlyPlaceholders text) :=
  inferInstanceAs (Decidable (¬ _))

namespace Piece

/-- The text for reading of a real number is not empty. -/
theorem display_write_ne_nil (x : Number.Binary64) : Number.RealLayout.display.write x ≠ [] := by
  cases hshape : x.shape with
  | nan => simp [Number.RealLayout.write, hshape]
  | infinite negative => simp [Number.RealLayout.write, hshape]
  | finite negative m q =>
    intro hnil
    have hread := Number.Binary64.read_write Number.RealLayout.endsIn_display hshape
    rw [hnil] at hread
    cases hread

/-- What is inserted begins with a character, and not with a bracket. -/
theorem exists_inserted_eq_cons (v : Value) : ∃ c rest, inserted v = c :: rest ∧ c ≠ '(' := by
  have hplain : ∀ {s : List Char}, s ≠ [] → '(' ∉ s → ∃ c rest, s = c :: rest ∧ c ≠ '(' := by
    rintro (_ | ⟨c, rest⟩) hne hnone
    · exact absurd rfl hne
    · exact ⟨c, rest, rfl, fun hc => hnone (hc ▸ List.mem_cons_self)⟩
  cases v with
  | null => exact ⟨_, _, rfl, by decide⟩
  | flag b => cases b <;> exact ⟨_, _, rfl, by decide⟩
  | text s => exact ⟨_, _, rfl, by decide⟩
  | integer n =>
    refine hplain ?_ fun h => absurd (Number.mem_intText h) (by decide)
    have hdigits : ∀ n, Number.digits n ≠ [] := fun n => Nat.toDigits_ne_nil
    show (String.ofList (Number.ofInt n.toInt)).toList ≠ []
    rw [String.toList_ofList]
    cases n.toInt with
    | ofNat n => exact hdigits n
    | negSucc n => exact List.cons_ne_nil _ _
  | real x =>
    refine hplain ?_ fun h => absurd (Number.Binary64.mem_displayText h) (by decide)
    have htext : inserted (.real x) = Number.RealLayout.display.write x := String.toList_ofList
    exact htext ▸ display_write_ne_nil x
  | blob bytes => exact ⟨_, _, String.toList_ofList, by decide⟩
  | timestamp t =>
    have htext : inserted (.timestamp t) = t.write := String.toList_ofList
    rw [htext]
    refine hplain ?_ fun h => absurd (Calendar.Timestamp.mem_write h) (by decide)
    simp [Calendar.Timestamp.write]

/-- What a piece is filled with begins with a bracket only if the piece is one. -/
theorem exists_fill_eq_cons {params : Params} {p : Piece} (hp : p ≠ .char '(') :
    ∃ c rest, fill params p = c :: rest ∧ c ≠ '(' := by
  cases p with
  | char c => exact ⟨c, [], rfl, fun hc => hp (congrArg Piece.char hc)⟩
  | placeholder name =>
    cases hbound : params.get? (String.ofList name) with
    | none => exact ⟨'#', _, by simp [fill, hbound, source]; rfl, by decide⟩
    | some v =>
      obtain ⟨c, rest, hv, hc⟩ := exists_inserted_eq_cons v
      exact ⟨c, rest, by simp [fill, hbound, hv], hc⟩

/-- No placeholder begins in front of pieces that do not begin with a bracket. -/
theorem placeholder?_flatMap_fill {params : Params} {pieces : List Piece}
    (h : pieces.head? ≠ some (.char '(')) : placeholder? (pieces.flatMap (fill params)) = none := by
  cases pieces with
  | nil => rfl
  | cons p rest =>
    obtain ⟨c, tail, hfill, hc⟩ := @exists_fill_eq_cons params p fun hp => h (congrArg some hp)
    by_contra hsome
    obtain ⟨⟨name, behind⟩, hsome⟩ := Option.ne_none_iff_exists'.1 hsome
    have hsource := (placeholder?_eq_some_iff.1 hsome).1
    rw [List.flatMap_cons, hfill] at hsource
    exact hc (List.cons.inj hsource).1

/-- Filled pieces are scanned one by one where no stray mark stands in front of a bracket. -/
theorem ofText_filled {params : Params} (hparams : InsertsNoMarks params) {s : List Char}
    {pieces : List Piece} (hsub : ∀ p ∈ pieces, p ∈ ofText s)
    (hopens : ¬ [.char '#', .char '('] <:+: pieces) :
    ofText (pieces.flatMap (fill params)) = pieces.flatMap (rescanned params) := by
  induction pieces with
  | nil => exact ofText_of_not_mem List.not_mem_nil
  | cons p rest ih =>
    have hrest := ih (fun q hq => hsub q (List.mem_cons_of_mem _ hq))
      fun hinfix => hopens (List.infix_cons hinfix)
    rw [List.flatMap_cons, List.flatMap_cons]
    by_cases hp : p = .char '#'
    · subst hp
      have hhead : rest.head? ≠ some (.char '(') := by
        intro hhead
        obtain ⟨tail, rfl⟩ := List.head?_eq_some_iff.1 hhead
        exact hopens ⟨[], tail, rfl⟩
      exact (ofText_stray (placeholder?_flatMap_fill hhead)).trans (congrArg _ hrest)
    · obtain ⟨hfill, hclosed⟩ := ofText_fill hparams (hsub p List.mem_cons_self) hp
      rw [ofText_append (by rwa [hfill]), hfill, hrest]

end Piece

/-- Where every `#(` begins a placeholder, those of names that are not bound are found again. -/
theorem placeholders_substitute_of_opensOnlyPlaceholders {params : Params}
    (hparams : InsertsNoMarks params) {text : String} (htext : OpensOnlyPlaceholders text) :
    placeholders (substitute params text) =
      (placeholders text).filter fun name => (params.get? name).isNone := by
  rw [placeholders, substitute, String.toList_ofList,
    Piece.ofText_filled hparams (fun _ hp => hp) htext, Piece.filterMap_name?_rescanned]
  rfl

/-- A second substitution changes nothing exactly if the first has made no bound placeholder, and
it has made none if every `#(` of the text begins a placeholder. -/
theorem substitute_again {params : Params} (hparams : InsertsNoMarks params) (text : String) :
    (substitute params (substitute params text) = substitute params text ↔
        ∀ name ∈ placeholders (substitute params text), params.get? name = none) ∧
      (OpensOnlyPlaceholders text →
        substitute params (substitute params text) = substitute params text) := by
  refine ⟨substitute_eq_self_iff hparams _, fun htext => ?_⟩
  refine (substitute_eq_self_iff hparams _).2 fun name hname => ?_
  rw [placeholders_substitute_of_opensOnlyPlaceholders hparams htext, List.mem_filter] at hname
  exact Option.isNone_iff_eq_none.1 hname.2

/-- A stray mark and an open bracket stay where they are, and so does a name that is not bound. -/
theorem substitute_again_stray :
    let params : Params := .ofList [⟨"x", .integer 5⟩, ⟨"c", .text "a(b)"⟩]
    let text := "SELECT # (#(x)#, #(y)#) WHERE #c = #(c)#"
    InsertsNoMarks params ∧ OpensOnlyPlaceholders text ∧
      substitute params text = "SELECT # (5, #(y)#) WHERE #c = 'a(b)'" ∧
      substitute params (substitute params text) = substitute params text := by
  intro params text
  have hparams : InsertsNoMarks params := .of_entries (by decide +kernel)
  have hopens : OpensOnlyPlaceholders text := by decide +kernel
  exact ⟨hparams, hopens, by decide +kernel, (substitute_again hparams text).2 hopens⟩

/-- A value inserted behind a stray `#(` becomes the name of a placeholder, and a kept placeholder
behind one lends it the mark at its end. -/
theorem substitute_makesPlaceholder :
    let params : Params := .ofList [⟨"x", .integer 5⟩, ⟨"5", .integer 7⟩]
    InsertsNoMarks params ∧ substitute params "#(#(x)#)#" = "#(5)#" ∧
      substitute params (substitute params "#(#(x)#)#") = "7" ∧
      substitute params "#(#(x)#)#(k)#" = "#(5)#(k)#" ∧
      substitute params (substitute params "#(#(x)#)#(k)#") = "7(k)#" := by
  intro params
  exact ⟨.of_entries (by decide +kernel), by decide +kernel⟩

end SqlMaps.Template
