import Mathlib.Data.List.Basic
import SqlMaps.Proofs.Markup.Grammar
import SqlMaps.Template.Placeholder

/-! Scanning texts that are put together from others.

A scan goes from left to right, so what it finds in a text can change when another text is put
in front or behind. It does not as long as every `#` belongs to a placeholder (`Closed`): then the
scan of two texts is that of the one and that of the other (`ofText_append`), white space at the
ends is of no account (`placeholders_trimmed`), and substitution takes the bound placeholders out
and leaves the others (`placeholders_substitute`). -/
namespace SqlMaps.Text

/-- What trimming takes off both ends is white space. -/
theorem exists_trim (s : List Char) :
    ∃ front back, allBlank front = true ∧ allBlank back = true ∧ s = front ++ trim s ++ back := by
  obtain ⟨front, hfront, hs⟩ := exists_trimStart s
  obtain ⟨back, hback, hr⟩ := exists_trimStart (trimStart s).reverse
  refine ⟨front, back.reverse, hfront, by simpa [allBlank] using hback, ?_⟩
  have hend : trimStart s = trim s ++ back.reverse := by
    have hreverse := congrArg List.reverse hr
    rwa [List.reverse_append, List.reverse_reverse] at hreverse
  rw [List.append_assoc, ← hend, ← hs]

theorem not_mem_of_allBlank {c : Char} (hc : isBlank c = false) {s : List Char}
    (h : allBlank s = true) : c ∉ s := by
  intro hmem
  simp [List.all_eq_true.1 h c hmem] at hc

end SqlMaps.Text

namespace SqlMaps.Template
namespace Piece
variable {s name rest : List Char}

/-- What a placeholder is: a name that is not empty, of characters that it can hold. -/
theorem placeholder?_eq_some_iff :
    placeholder? s = some (name, rest) ↔
      s = '(' :: name ++ ')' :: '#' :: rest ∧ name ≠ [] ∧ ∀ c ∈ name, isNameChar c = true := by
  constructor
  · intro h
    have hsource := placeholder?_eq_some h
    refine ⟨by simpa [source] using hsource, ?_⟩
    unfold placeholder? at h
    split at h
    · split at h
      · rename_i c name' rest' hn _
        simp only [Option.some.injEq, Prod.mk.injEq] at h
        obtain ⟨rfl, rfl⟩ := h
        refine ⟨by simp, fun d hd => ?_⟩
        rw [← hn] at hd
        exact List.all_eq_true.1 List.all_takeWhile d hd
      · cases h
    · cases h
  · rintro ⟨rfl, hne, hname⟩
    have htake : (name ++ ')' :: '#' :: rest).takeWhile isNameChar = name := by
      rw [List.takeWhile_append_of_pos hname, List.takeWhile_cons_of_neg (by decide),
        List.append_nil]
    have hdrop : (name ++ ')' :: '#' :: rest).dropWhile isNameChar = ')' :: '#' :: rest := by
      rw [List.dropWhile_append_of_pos hname, List.dropWhile_cons_of_neg (by decide)]
    obtain ⟨c, tail, rfl⟩ := List.exists_cons_of_ne_nil hne
    rw [List.cons_append, placeholder?, htake, hdrop]
    rfl

theorem placeholder?_append (h : placeholder? s = some (name, rest)) (t : List Char) :
    placeholder? (s ++ t) = some (name, rest ++ t) := by
  obtain ⟨rfl, hname⟩ := placeholder?_eq_some_iff.1 h
  exact placeholder?_eq_some_iff.2 ⟨by simp, hname⟩

/-- A text without a `#` completes no placeholder in front of it. -/
theorem placeholder?_append_eq_none (h : placeholder? s = none) {t : List Char} (ht : '#' ∉ t) :
    placeholder? (s ++ t) = none := by
  by_contra hsome
  obtain ⟨⟨name, rest⟩, hsome⟩ := Option.ne_none_iff_exists'.1 hsome
  obtain ⟨hs, hname⟩ := placeholder?_eq_some_iff.1 hsome
  have hs' : s ++ t = ('(' :: name ++ [')', '#']) ++ rest := by simpa using hs
  rcases List.append_eq_append_iff.1 hs' with ⟨a, ha, rfl⟩ | ⟨a, rfl, rfl⟩
  · -- The mark at the end is the first character of the text behind, or the text ends with it.
    rcases List.eq_nil_or_concat a with rfl | ⟨b, c, rfl⟩
    · have hwhole : placeholder? s = some (name, []) :=
        placeholder?_eq_some_iff.2 ⟨by simpa using ha.symm, hname⟩
      rw [h] at hwhole
      cases hwhole
    · have hend : '(' :: name ++ [')'] ++ ['#'] = s ++ b ++ [c] := by simpa using ha
      obtain rfl : '#' = c := List.singleton_inj.1 (List.append_inj' hend rfl).2
      simp at ht
  · have hwhole : placeholder? ('(' :: name ++ [')', '#'] ++ a) = some (name, a) :=
      placeholder?_eq_some_iff.2 ⟨by simp, hname⟩
    rw [h] at hwhole
    cases hwhole

theorem ofText_mark (h : placeholder? s = some (name, rest)) :
    ofText ('#' :: s) = .placeholder name :: ofText rest := by
  rw [ofText, if_pos rfl]
  split
  · rename_i hsome
    obtain ⟨rfl, rfl⟩ := Prod.mk.inj (Option.some.inj (h.symm.trans hsome))
    rfl
  · rename_i hnone
    rw [h] at hnone
    cases hnone

theorem ofText_stray (h : placeholder? s = none) : ofText ('#' :: s) = .char '#' :: ofText s := by
  rw [ofText, if_pos rfl]
  split
  · rename_i hsome
    rw [h] at hsome
    cases hsome
  · rfl

theorem ofText_cons {c : Char} (hc : c ≠ '#') : ofText (c :: s) = .char c :: ofText s := by
  rw [ofText, if_neg hc]

/-- A text whose marks all belong to placeholders is scanned for itself. -/
theorem ofText_append (h : .char '#' ∉ ofText s) (t : List Char) :
    ofText (s ++ t) = ofText s ++ ofText t := by
  fun_induction ofText s with
  | case1 => rfl
  | case2 s name rest hfound ih =>
    rw [List.cons_append, ofText_mark (placeholder?_append hfound t),
      ih (fun hmem => h (List.mem_cons_of_mem _ hmem)), List.cons_append]
  | case3 s hnone ih => simp at h
  | case4 c s hc ih =>
    rw [List.cons_append, ofText_cons hc, ih (fun hmem => h (List.mem_cons_of_mem _ hmem)),
      List.cons_append]

theorem ofText_of_not_mem (h : '#' ∉ s) : ofText s = s.map .char := by
  fun_induction ofText s with
  | case1 => rfl
  | case2 => simp at h
  | case3 => simp at h
  | case4 c s hc ih => rw [List.map_cons, ih (fun hmem => h (List.mem_cons_of_mem _ hmem))]

/-- A text without marks behind another one is scanned for itself. -/
theorem ofText_append_of_not_mem {t : List Char} (ht : '#' ∉ t) :
    ofText (s ++ t) = ofText s ++ t.map .char := by
  fun_induction ofText s with
  | case1 => exact ofText_of_not_mem ht
  | case2 s name rest hfound ih =>
    rw [List.cons_append, ofText_mark (placeholder?_append hfound t), ih, List.cons_append]
  | case3 s hnone ih =>
    rw [List.cons_append, ofText_stray (placeholder?_append_eq_none hnone ht), ih, List.cons_append]
  | case4 c s hc ih => rw [List.cons_append, ofText_cons hc, ih, List.cons_append]

/-- A placeholder that a scan has found is found again where it is written. -/
theorem ofText_source_of_mem (h : .placeholder name ∈ ofText s) :
    ofText (source (.placeholder name)) = [.placeholder name] := by
  have hname : name ≠ [] ∧ ∀ c ∈ name, isNameChar c = true := by
    fun_induction ofText s with
    | case1 => cases h
    | case2 s found rest hfound ih =>
      rcases List.mem_cons.1 h with heq | hmem
      · cases heq
        exact (placeholder?_eq_some_iff.1 hfound).2
      · exact ih hmem
    | case3 s hnone ih => exact ih (by simpa using h)
    | case4 c s hc ih => exact ih (by simpa using h)
  have hwhole : placeholder? ('(' :: name ++ [')', '#']) = some (name, []) :=
    placeholder?_eq_some_iff.2 ⟨rfl, hname⟩
  have hscan := ofText_mark hwhole
  rwa [ofText_of_not_mem List.not_mem_nil] at hscan

/-- The name, of a placeholder. -/
def name? : Piece → Option String
  | .char _ => none
  | .placeholder name => some (String.ofList name)

end Piece

/-- The names of the placeholders in a text, one after another. -/
def placeholders (text : String) : List String :=
  (Piece.ofText text.toList).filterMap Piece.name?

/-- Every `#` of the text belongs to a placeholder. -/
def Closed (text : String) : Prop :=
  .char '#' ∉ Piece.ofText text.toList

instance (text : String) : Decidable (Closed text) :=
  inferInstanceAs (Decidable (¬ _))

/-- No value that is bound has a `#` in the form it is inserted in. -/
def InsertsNoMarks (params : Params) : Prop :=
  ∀ name v, params.get? name = some v → '#' ∉ Piece.inserted v

section
variable {s t : String}

theorem closed_of_not_mem (h : '#' ∉ s.toList) : Closed s := by
  rw [Closed, Piece.ofText_of_not_mem h]
  simpa using h

theorem Closed.append (hs : Closed s) (ht : Closed t) : Closed (s ++ t) := by
  rw [Closed, String.toList_append, Piece.ofText_append hs]
  simp only [List.mem_append, not_or]
  exact ⟨hs, ht⟩

theorem placeholders_append (hs : Closed s) (t : String) :
    placeholders (s ++ t) = placeholders s ++ placeholders t := by
  rw [placeholders, String.toList_append, Piece.ofText_append hs, List.filterMap_append]
  rfl

theorem name?_char (cs : List Char) : (cs.map Piece.char).filterMap Piece.name? = [] := by
  rw [List.filterMap_map, List.filterMap_eq_nil_iff]
  exact fun _ _ => rfl

/-- The scan of a trimmed text, with what has been taken off around it. -/
theorem exists_ofText_trimmed (s : String) :
    ∃ front back : List Char, Piece.ofText s.toList =
      front.map .char ++ Piece.ofText (Text.trimmed s).toList ++ back.map .char := by
  have hmark : Text.isBlank '#' = false := by decide
  obtain ⟨front, back, hfront, hback, heq⟩ := Text.exists_trim s.toList
  have hnone := Text.not_mem_of_allBlank hmark hfront
  have hclosed : Piece.char '#' ∉ Piece.ofText front := by
    rw [Piece.ofText_of_not_mem hnone]
    simpa using hnone
  refine ⟨front, back, ?_⟩
  rw [Text.trimmed, String.toList_ofList, ← Piece.ofText_of_not_mem hnone, List.append_assoc,
    ← Piece.ofText_append_of_not_mem (Text.not_mem_of_allBlank hmark hback),
    ← Piece.ofText_append hclosed, ← List.append_assoc, ← heq]

theorem Closed.trimmed (hs : Closed s) : Closed (Text.trimmed s) := by
  obtain ⟨front, back, heq⟩ := exists_ofText_trimmed s
  rw [Closed, heq] at hs
  simp only [List.mem_append, not_or] at hs
  exact hs.1.2

theorem placeholders_trimmed (s : String) : placeholders (Text.trimmed s) = placeholders s := by
  obtain ⟨front, back, heq⟩ := exists_ofText_trimmed s
  rw [placeholders, placeholders, heq, List.filterMap_append, List.filterMap_append, name?_char,
    name?_char, List.nil_append, List.append_nil]

end

/-! ### Substitution -/

namespace Piece

/-- What a scan finds where the piece has been filled. -/
def rescanned (params : Params) : Piece → List Piece
  | .char c => [.char c]
  | .placeholder name =>
    match params.get? (String.ofList name) with
    | some v => (inserted v).map .char
    | none => [.placeholder name]

theorem ofText_fill {params : Params} (hparams : InsertsNoMarks params) {s : List Char} {p : Piece}
    (hp : p ∈ ofText s) (hmark : p ≠ .char '#') :
    ofText (fill params p) = rescanned params p ∧ .char '#' ∉ rescanned params p := by
  cases p with
  | char c =>
    have hc : c ≠ '#' := fun hc => hmark (congrArg Piece.char hc)
    exact ⟨ofText_of_not_mem (by simpa [fill] using hc.symm), by simpa [rescanned] using hc.symm⟩
  | placeholder name =>
    cases hbound : params.get? (String.ofList name) with
    | none =>
      simp only [fill, rescanned, hbound]
      exact ⟨ofText_source_of_mem hp, by simp⟩
    | some v =>
      have hnone := hparams _ v hbound
      simp only [fill, rescanned, hbound]
      exact ⟨ofText_of_not_mem hnone, by simpa using hnone⟩

/-- Filled pieces are scanned one by one. -/
theorem ofText_flatMap_fill {params : Params} (hparams : InsertsNoMarks params) {s : List Char}
    {pieces : List Piece} (hsub : ∀ p ∈ pieces, p ∈ ofText s) (hmark : .char '#' ∉ pieces) :
    ofText (pieces.flatMap (fill params)) = pieces.flatMap (rescanned params) ∧
      .char '#' ∉ pieces.flatMap (rescanned params) := by
  induction pieces with
  | nil => exact ⟨ofText_of_not_mem List.not_mem_nil, by simp⟩
  | cons p rest ih =>
    have hp : p ≠ .char '#' := fun heq => hmark (heq ▸ List.mem_cons_self)
    obtain ⟨hfill, hclosed⟩ := ofText_fill hparams (hsub p List.mem_cons_self) hp
    obtain ⟨hrest, hrestClosed⟩ := ih (fun q hq => hsub q (List.mem_cons_of_mem _ hq))
      (fun hmem => hmark (List.mem_cons_of_mem _ hmem))
    simp only [List.flatMap_cons]
    refine ⟨?_, by simpa using ⟨hclosed, by simpa using hrestClosed⟩⟩
    rw [ofText_append (by rwa [hfill]), hfill, hrest]

theorem filterMap_name?_rescanned (params : Params) (pieces : List Piece) :
    (pieces.flatMap (rescanned params)).filterMap name? =
      (pieces.filterMap name?).filter fun name => (params.get? name).isNone := by
  induction pieces with
  | nil => rfl
  | cons p rest ih =>
    rw [List.flatMap_cons, List.filterMap_append, ih]
    cases p with
    | char c => rfl
    | placeholder name =>
      cases hbound : params.get? (String.ofList name) with
      | none => simp [rescanned, hbound, name?]
      | some v =>
        simp only [rescanned, hbound, name?_char]
        simp [name?, hbound]

end Piece

section
variable {params : Params} (hparams : InsertsNoMarks params) {s : String} (hs : Closed s)
include hparams hs

theorem Closed.substitute : Closed (substitute params s) := by
  obtain ⟨hscan, hclosed⟩ := Piece.ofText_flatMap_fill hparams (fun _ hp => hp) hs
  rwa [Closed, SqlMaps.Template.substitute, String.toList_ofList, hscan]

/-- Substitution leaves the placeholders of names that are not bound, and no others. -/
theorem placeholders_substitute :
    placeholders (substitute params s) =
      (placeholders s).filter fun name => (params.get? name).isNone := by
  obtain ⟨hscan, -⟩ := Piece.ofText_flatMap_fill hparams (fun _ hp => hp) hs
  rw [placeholders, SqlMaps.Template.substitute, String.toList_ofList, hscan,
    Piece.filterMap_name?_rescanned]
  rfl

end

end SqlMaps.Template
