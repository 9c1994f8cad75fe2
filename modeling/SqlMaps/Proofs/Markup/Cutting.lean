import SqlMaps.Markup.Document
import SqlMaps.Proofs.Markup.Grammar

/-! Where tokens end.

The end of a token is decided by what is in it: whatever comes behind it, the same token
is read off, and the same is left (`scan?_stands`), for it is written as one
(`stands_iff`). So tokens and character data, put together, are cut where they were put
together (`ofText_flatMap_source`). -/
namespace SqlMaps

namespace Markup.Token
variable {s rest : List Char} {t : Token}

/-- The text is read as the token, whatever comes behind it. -/
def Stands (t : Token) (source : List Char) : Prop :=
  ∀ rest, scan? (source ++ rest) = some (t, rest)

theorem written_head {source : List Char} (h : Written t source) :
    ∃ body, source = '<' :: body := by
  cases h <;> exact ⟨_, rfl⟩

/-- What is read as a token whatever comes behind it is written as one. -/
theorem stands_iff {body : List Char} : Stands t body ↔ Written t ('<' :: body) := by
  constructor
  · intro h
    obtain ⟨source, hwritten, hsource⟩ := scan?_eq_some_iff.1 (h [])
    rw [List.append_nil, List.append_nil] at hsource
    rwa [hsource]
  · exact fun h rest => scan?_eq_some_iff.2 ⟨_, h, rfl⟩

/-- A token ends where it ends, whatever comes behind it. -/
theorem scan?_stands (h : scan? s = some (t, rest)) :
    ∃ source, s = source ++ rest ∧ Stands t source := by
  obtain ⟨_, hwritten, hs⟩ := scan?_eq_some_iff.1 h
  obtain ⟨body, rfl⟩ := written_head hwritten
  exact ⟨body, (List.cons.inj hs).2, stands_iff.2 hwritten⟩

end Markup.Token

namespace Markup.Segment

/-- A segment that is cut off where it ends: character data with no `<` in it, or a token. -/
def Plain : Segment → Prop
  | .gap content => '<' ∉ content
  | .token t source => ∃ body, source = '<' :: body ∧ Token.Stands t body

/-- A token ends where it ends if and only if it is written as one. -/
theorem plain_token_iff {t : Token} {source : List Char} :
    Plain (.token t source) ↔ Token.Written t source := by
  constructor
  · intro ⟨body, hsource, hstands⟩
    rw [hsource]
    exact Token.stands_iff.1 hstands
  · intro h
    obtain ⟨body, rfl⟩ := Token.written_head h
    exact ⟨body, rfl, Token.stands_iff.2 h⟩

/-- Between character data and character data there is a token. -/
def Spaced : List Segment → Prop
  | [] => True
  | .gap content :: rest => content ≠ [] ∧ (∀ more tail, rest ≠ .gap more :: tail) ∧ Spaced rest
  | .token .. :: rest => Spaced rest

/-- Puts a segment in front. -/
def join : Segment → List Segment → List Segment
  | .gap content, rest => content.foldr consChar rest
  | .token t source, rest => .token t source :: rest

theorem ofText_source {segment : Segment} (h : segment.Plain) (s : List Char) :
    ofText (segment.source ++ s) = segment.join (ofText s) := by
  cases segment with
  | gap content =>
    have hdata : '<' ∉ content := h
    simp only [source, join]
    clear h
    induction content with
    | nil => rfl
    | cons c content ih =>
      simp only [List.mem_cons, not_or] at hdata
      rw [List.cons_append, ofText, if_neg (Ne.symm hdata.1), ih hdata.2]
      rfl
  | token t source =>
    obtain ⟨body, rfl, hstands⟩ := h
    simp only [Segment.source, join, List.cons_append]
    rw [ofText, if_pos rfl]
    split
    · rename_i t' after hscan
      rw [hstands] at hscan
      simp only [Option.some.injEq, Prod.mk.injEq] at hscan
      obtain ⟨rfl, rfl⟩ := hscan
      simp
    · rename_i hscan
      rw [hstands] at hscan
      cases hscan

theorem plain_of_token {s source : List Char} {t : Token} (h : .token t source ∈ ofText s) :
    Plain (.token t source) := by
  have hdata : ∀ {c : Char} {segments : List Segment},
      .token t source ∈ consChar c segments → .token t source ∈ segments := by
    intro c segments hmem
    unfold consChar at hmem
    split at hmem <;> simpa using hmem
  fun_induction ofText s with
  | case1 => cases h
  | case2 rest t' after hscan ih =>
    rcases List.mem_cons.1 h with he | h
    · obtain ⟨body, hbody, hstands⟩ := Token.scan?_stands hscan
      simp only [token.injEq] at he
      obtain ⟨rfl, rfl⟩ := he
      exact ⟨body, by simp [hbody], hstands⟩
    · exact ih h
  | case3 rest _ ih => exact ih (hdata h)
  | case4 c rest _ ih => exact ih (hdata h)

theorem spaced_ofText (s : List Char) : Spaced (ofText s) := by
  have hdata : ∀ {c : Char} {segments : List Segment}, Spaced segments →
      Spaced (consChar c segments) := by
    intro c segments h
    unfold consChar
    split
    · exact ⟨List.cons_ne_nil _ _, h.2⟩
    · rename_i hgap
      exact ⟨List.cons_ne_nil _ _, fun more tail he => hgap _ _ he, h⟩
  fun_induction ofText s with
  | case1 => trivial
  | case2 rest t after _ ih => exact ih
  | case3 rest _ ih => exact hdata ih
  | case4 c rest _ ih => exact hdata ih

/-- Segments with a token between any two texts are joined to just what they are. -/
theorem foldr_join_of_spaced {segments : List Segment} (h : Spaced segments) :
    segments.foldr join [] = segments := by
  have hdata : ∀ {content : List Char} {rest : List Segment}, content ≠ [] →
      (∀ more tail, rest ≠ .gap more :: tail) → join (.gap content) rest = .gap content :: rest := by
    intro content rest hne hrest
    induction content with
    | nil => exact absurd rfl hne
    | cons c content ih =>
      cases content with
      | nil =>
        simp only [join, List.foldr_cons, List.foldr_nil]
        unfold consChar
        split
        · exact absurd rfl (hrest _ _)
        · rfl
      | cons d content =>
        have hmore : join (.gap (d :: content)) rest = .gap (d :: content) :: rest :=
          ih (List.cons_ne_nil _ _)
        show consChar c (join (.gap (d :: content)) rest) = _
        rw [hmore]
        rfl
  induction segments with
  | nil => rfl
  | cons segment rest ih =>
    cases segment with
    | gap content => rw [List.foldr_cons, ih h.2.2, hdata h.1 h.2.1]
    | token t source => rw [List.foldr_cons, ih h, join]

/-- Such segments, put together, are cut where they were put together. -/
theorem ofText_flatMap_source {segments : List Segment} (hplain : ∀ s ∈ segments, Plain s)
    (hspaced : Spaced segments) : ofText (segments.flatMap source) = segments := by
  have hjoin : ∀ {l : List Segment}, (∀ s ∈ l, Plain s) → ofText (l.flatMap source) = l.foldr join [] := by
    intro l hl
    induction l with
    | nil => simp [ofText]
    | cons segment rest ih =>
      rw [List.flatMap_cons, ofText_source (hl segment (List.mem_cons_self ..)),
        ih fun s hs => hl s (List.mem_cons_of_mem _ hs), List.foldr_cons]
  rw [hjoin hplain, foldr_join_of_spaced hspaced]

end Markup.Segment

end SqlMaps
