import SqlMaps.Text.Blank
import SqlMaps.Text.Split
import SqlMaps.Markup.Event
import SqlMaps.Markup.Entity

/-! Tokens: the pieces of markup that begin with `<`.

A `<` that begins no token is left in the character data around it; whether that is
a fault is for the document to say. What a token leaves is the end of the text it was
handed (`scan?_suffix`), so cutting tokens off loses nothing. -/
namespace SqlMaps.Markup

/-- A piece of markup. -/
inductive Token where
  /-- A comment, a processing instruction or a document type. -/
  | aside
  /-- Character data taken as it is. -/
  | verbatim (content : List Char)
  | opening (name : String) (attributes : Attributes) (empty : Bool)
  | closing (name : String)
  deriving DecidableEq

namespace Token

/-- Whether a name can begin with the character. -/
def isNameStart (c : Char) : Bool :=
  c.isAlpha || c == '_' || c == ':'

/-- Whether a name can go on with the character. -/
def isNameChar (c : Char) : Bool :=
  c.isAlphanum || c == '-' || c == '_' || c == ':' || c == '.'

/-- The name at the head of the text. -/
def name? : List Char → Option (String × List Char)
  | [] => none
  | c :: rest =>
    if isNameStart c then
      some (String.ofList (c :: rest.takeWhile isNameChar), rest.dropWhile isNameChar)
    else none

/-- A text in quotes of either kind. A quote of the other kind may stand inside. -/
def quoted? : List Char → Option (List Char × List Char)
  | '"' :: rest => Text.splitAtChar '"' rest
  | '\'' :: rest => Text.splitAtChar '\'' rest
  | _ => none

/-- The attribute at the head of the text, with white space before it. -/
def attribute? (s : List Char) : Option ((String × String) × List Char) := do
  let named := Text.trimStart s
  if named.length < s.length then
    let (name, rest) ← name? named
    match Text.trimStart rest with
    | '=' :: rest =>
      let (value, rest) ← quoted? (Text.trimStart rest)
      return ((name, String.ofList (Entity.decode value)), rest)
    | _ => none
  else none

theorem splitAtChar_suffix {c : Char} {s before after : List Char}
    (h : Text.splitAtChar c s = some (before, after)) : after <:+ s := by
  rw [Text.splitAtChar_eq_append h]
  exact (List.suffix_cons _ _).trans (List.suffix_append _ _)

theorem quoted?_suffix {s value rest : List Char} (h : quoted? s = some (value, rest)) :
    rest <:+ s := by
  unfold quoted? at h
  split at h
  · exact (splitAtChar_suffix h).trans (List.suffix_cons _ _)
  · exact (splitAtChar_suffix h).trans (List.suffix_cons _ _)
  · simp at h

theorem trimStart_suffix (s : List Char) : Text.trimStart s <:+ s :=
  List.dropWhile_suffix _

theorem name?_suffix {s rest : List Char} {name : String} (h : name? s = some (name, rest)) :
    rest <:+ s := by
  unfold name? at h
  split at h
  · simp at h
  · split at h
    · simp only [Option.some.injEq, Prod.mk.injEq] at h
      rw [← h.2]
      exact (List.dropWhile_suffix _).trans (List.suffix_cons _ _)
    · simp at h

/-- An attribute takes at least the white space before it. -/
theorem attribute?_suffix {s rest : List Char} {a : String × String}
    (h : attribute? s = some (a, rest)) : rest <:+ s ∧ rest.length < s.length := by
  simp only [attribute?, Option.bind_eq_bind] at h
  split at h
  · rename_i hlt
    simp only [Option.pure_def, Option.bind_eq_some_iff] at h
    obtain ⟨⟨name, r⟩, hn, h⟩ := h
    simp only at h
    split at h
    · rename_i r' hr
      obtain ⟨⟨value, r''⟩, hq, h⟩ := Option.bind_eq_some_iff.1 h
      simp only [Option.some.injEq, Prod.mk.injEq] at h
      have h1 : r' <:+ r := by
        have := trimStart_suffix r
        rw [hr] at this
        exact (List.suffix_cons _ _).trans this
      have h2 : rest <:+ Text.trimStart s :=
        h.2 ▸ (quoted?_suffix hq).trans ((trimStart_suffix _).trans (h1.trans (name?_suffix hn)))
      exact ⟨h2.trans (trimStart_suffix s), Nat.lt_of_le_of_lt h2.length_le hlt⟩
    · simp at h
  · simp at h

/-- The attributes at the head of the text, as many as there are. -/
def attributes (s : List Char) : Attributes × List Char :=
  match _h : attribute? s with
  | some (a, rest) =>
    let (more, rest) := attributes rest
    (a :: more, rest)
  | none => ([], s)
termination_by s.length
decreasing_by exact (attribute?_suffix ‹_›).2

/-- What stands between an opening word and the first closing word after it. -/
def between? (opening closing : String) (s : List Char) : Option (List Char × List Char) :=
  (Text.dropWord opening.toList s).bind (Text.splitAtWord closing.toList)

/-- Markup that stands for nothing, between two words. -/
def aside? (opening closing : String) (s : List Char) : Option (Token × List Char) :=
  (between? opening closing s).map fun (_, rest) => (.aside, rest)

/-- Character data taken as it is, between two words. -/
def verbatim? (opening closing : String) (s : List Char) : Option (Token × List Char) :=
  (between? opening closing s).map fun (content, rest) => (.verbatim content, rest)

/-- A start or end tag. An end tag may hold what a start tag holds; it is ignored. -/
def tag? (s : List Char) : Option (Token × List Char) := do
  let (isEnd, s) := match s with
    | '/' :: s => (true, s)
    | s => (false, s)
  let (name, s) ← name? s
  let (attributes, s) := attributes s
  let (isEmpty, s) := match Text.trimStart s with
    | '/' :: s => (true, s)
    | s => (false, s)
  match s with
  | '>' :: s => return (if isEnd then .closing name else .opening name attributes isEmpty, s)
  | _ => none

/-- The token that a `<` begins, from the text after it. -/
def scan? (s : List Char) : Option (Token × List Char) :=
  aside? "!--" "-->" s <|> verbatim? "![CDATA[" "]]>" s <|> aside? "?" "?>" s <|>
    aside? "!DOCTYPE" ">" s <|> tag? s

theorem attributes_suffix (s : List Char) : (attributes s).2 <:+ s := by
  fun_induction attributes s with
  | case1 s a rest h more rest' hr ih =>
    rw [hr] at ih
    exact ih.trans (attribute?_suffix h).1
  | case2 => exact List.suffix_refl _

theorem between?_suffix {opening closing : String} {s content rest : List Char}
    (h : between? opening closing s = some (content, rest)) : rest <:+ s := by
  obtain ⟨r, hr, ha⟩ := Option.bind_eq_some_iff.1 h
  rw [Text.dropWord_eq_some_iff.1 hr, Text.splitAtWord_eq_append ha]
  exact (List.suffix_append _ _).trans ((List.suffix_append _ _).trans (List.suffix_append _ _))

theorem aside?_suffix {opening closing : String} {s rest : List Char} {t : Token}
    (h : aside? opening closing s = some (t, rest)) : rest <:+ s := by
  obtain ⟨⟨c, r⟩, hr, he⟩ := Option.map_eq_some_iff.1 h
  simp only [Prod.mk.injEq] at he
  exact he.2 ▸ between?_suffix hr

theorem verbatim?_suffix {opening closing : String} {s rest : List Char} {t : Token}
    (h : verbatim? opening closing s = some (t, rest)) : rest <:+ s := by
  obtain ⟨⟨c, r⟩, hr, he⟩ := Option.map_eq_some_iff.1 h
  simp only [Prod.mk.injEq] at he
  exact he.2 ▸ between?_suffix hr

theorem slash_suffix (s : List Char) :
    (match s with
      | '/' :: s => (true, s)
      | s => (false, s)).2 <:+ s := by
  split
  · exact List.suffix_cons _ _
  · exact List.suffix_refl _

theorem tag?_suffix {s rest : List Char} {t : Token} (h : tag? s = some (t, rest)) :
    rest <:+ s := by
  simp only [tag?, Option.bind_eq_bind, Option.bind_eq_some_iff, Option.pure_def] at h
  obtain ⟨⟨name, s₂⟩, hn, h⟩ := h
  split at h
  · rename_i s₃ hs
    simp only [Option.some.injEq, Prod.mk.injEq] at h
    have h1 : rest <:+ Text.trimStart (attributes s₂).2 := by
      have := slash_suffix (Text.trimStart (attributes s₂).2)
      rw [hs] at this
      exact h.2 ▸ (List.suffix_cons _ _).trans this
    exact h1.trans ((trimStart_suffix _).trans ((attributes_suffix _).trans
      ((name?_suffix hn).trans (slash_suffix s))))
  · simp at h

/-- What a token leaves is the end of what it was handed. -/
theorem scan?_suffix {s rest : List Char} {t : Token} (h : scan? s = some (t, rest)) :
    rest <:+ s := by
  simp only [scan?, Option.orElse_eq_orElse, Option.orElse_eq_or, Option.or_eq_some_iff] at h
  rcases h with h | ⟨_, h | ⟨_, h | ⟨_, h | ⟨_, h⟩⟩⟩⟩
  · exact aside?_suffix h
  · exact verbatim?_suffix h
  · exact aside?_suffix h
  · exact aside?_suffix h
  · exact tag?_suffix h

end Token

end SqlMaps.Markup
