import SqlMaps.Markup.Token
import SqlMaps.Proofs.Markup.Decoding

/-! How tokens are written, and that the scanner reads just what is written so.

`Token.Written` is the grammar of tokens. What stands between two words goes up to the first
occurrence of the second one, an attribute has white space in front, and a tag ends behind
its attributes. Each reader takes a piece off a text if and only if the text begins with
what the grammar has for the piece, whatever comes behind (`quoted?_eq_some_iff`,
`attribute?_eq_some_iff`, `tag?_eq_some_iff`), and so does the scanner
(`scan?_eq_some_iff`). Only a name has to be told from what comes behind it. The attributes
that are read are also those that a search for attributes finds (`found_attributes`). -/
namespace SqlMaps

namespace Text
variable {word before after s : List Char}

/-- The word is first seen where it is put behind the text. -/
def UpTo (word content : List Char) : Prop :=
  ∀ before after, content ++ word = before ++ (word ++ after) → after = []

theorem upTo_nil (word : List Char) : UpTo word [] := by
  intro before after h
  have hlength := congrArg List.length h
  simp only [List.nil_append, List.length_append] at hlength
  exact List.eq_nil_of_length_eq_zero (by omega)

theorem splitAtWord_of_dropWord (h : dropWord word s = some after) :
    splitAtWord word s = some ([], after) := by
  cases s with
  | nil =>
    rw [splitAtWord, h]
    rfl
  | cons c s => rw [splitAtWord, h]

theorem splitAtWord_of_upTo (h : UpTo word before) (after : List Char) :
    splitAtWord word (before ++ (word ++ after)) = some (before, after) := by
  induction before with
  | nil => exact splitAtWord_of_dropWord (dropWord_eq_some_iff.2 rfl)
  | cons c before ih =>
    have hbefore : UpTo word before := fun x y hxy =>
      h (c :: x) y (by rw [List.cons_append, hxy, List.cons_append])
    -- A word in front would be seen before the one behind the text.
    have hnone : dropWord word (c :: (before ++ (word ++ after))) = none := by
      rw [Option.eq_none_iff_forall_ne_some]
      intro rest hrest
      have hfront : word <+: c :: before ++ word :=
        List.prefix_of_prefix_length_le ⟨rest, (dropWord_eq_some_iff.1 hrest).symm⟩
          ⟨after, by simp⟩ (by simp only [List.length_append]; omega)
      obtain ⟨more, hmore⟩ := hfront
      obtain rfl := h [] more hmore.symm
      have hlength := congrArg List.length hmore
      simp only [List.length_append, List.length_cons, List.length_nil] at hlength
      omega
    rw [List.cons_append, splitAtWord, hnone, ih hbefore]
    rfl

theorem upTo_of_splitAtWord (h : splitAtWord word s = some (before, after)) : UpTo word before := by
  induction s generalizing before with
  | nil =>
    obtain ⟨rest, -, he⟩ := Option.map_eq_some_iff.1 h
    cases he
    exact upTo_nil word
  | cons c s ih =>
    have hs := splitAtWord_eq_append h
    rw [splitAtWord] at h
    split at h
    · cases h
      exact upTo_nil word
    · rename_i hnone
      obtain ⟨⟨rest, _⟩, hp, he⟩ := Option.map_eq_some_iff.1 h
      cases he
      intro x y hxy
      cases x with
      | nil =>
        have hword : dropWord word (c :: s) = some (y ++ after) :=
          dropWord_eq_some_iff.2 (by rw [hs, ← List.append_assoc, hxy]; simp)
        rw [hnone] at hword
        cases hword
      | cons d x => exact ih hp x y (List.cons.inj hxy).2

/-- A text cut at the word goes up to it. -/
theorem splitAtWord_eq_some_iff :
    splitAtWord word s = some (before, after) ↔
      s = before ++ (word ++ after) ∧ UpTo word before := by
  constructor
  · exact fun h => ⟨splitAtWord_eq_append h, upTo_of_splitAtWord h⟩
  · rintro ⟨hs, hup⟩
    rw [hs]
    exact splitAtWord_of_upTo hup after

theorem splitAtChar_append {c : Char} (h : c ∉ before) (after : List Char) :
    splitAtChar c (before ++ c :: after) = some (before, after) := by
  induction before with
  | nil => simp [splitAtChar]
  | cons d before ih =>
    simp only [List.mem_cons, not_or] at h
    simp [splitAtChar, ih h.2, Ne.symm h.1]

theorem splitAtChar_eq_none_iff {c : Char} : splitAtChar c s = none ↔ c ∉ s := by
  induction s with
  | nil => simp [splitAtChar]
  | cons d s ih =>
    by_cases h : d = c
    · simp [splitAtChar, h]
    · simp [splitAtChar, h, ih, Ne.symm h]

theorem not_mem_of_splitAtChar {c : Char} (h : splitAtChar c s = some (before, after)) :
    c ∉ before := by
  induction s generalizing before with
  | nil => cases h
  | cons d s ih =>
    rw [splitAtChar] at h
    split at h
    · simp only [Option.some.injEq, Prod.mk.injEq] at h
      simp [← h.1]
    · rename_i hd
      obtain ⟨⟨rest, _⟩, hp, he⟩ := Option.map_eq_some_iff.1 h
      simp only [Prod.mk.injEq] at he
      obtain ⟨rfl, rfl⟩ := he
      simp [ih hp, Ne.symm hd]

/-- A text cut at the character goes up to it. -/
theorem splitAtChar_eq_some_iff {c : Char} :
    splitAtChar c s = some (before, after) ↔ s = before ++ c :: after ∧ c ∉ before := by
  constructor
  · exact fun h => ⟨splitAtChar_eq_append h, not_mem_of_splitAtChar h⟩
  · rintro ⟨hs, hmem⟩
    rw [hs]
    exact splitAtChar_append hmem after

/-- A white-space character is no letter in another case. -/
theorem isBlank_toLower {c : Char} (h : isBlank c = true) : isBlank c.toLower = true := by
  rw [toLower_of_not_capital]
  · exact h
  · rintro ⟨hlow, hhigh⟩
    have hlow' : 65 ≤ c.toNat := UInt32.le_iff_toNat_le.1 hlow
    have hhigh' : c.toNat ≤ 90 := UInt32.le_iff_toNat_le.1 hhigh
    simp only [isBlank, Bool.or_eq_true, Bool.and_eq_true, decide_eq_true_eq, beq_iff_eq] at h
    omega

theorem trimStart_append {blanks s : List Char} (h : allBlank blanks = true) :
    trimStart (blanks ++ s) = trimStart s := by
  rw [trimStart, List.dropWhile_append_of_pos]
  · rfl
  · simpa [allBlank] using h

theorem trimStart_of_head {s : List Char} (h : ∀ c ∈ s.head?, isBlank c = false) :
    trimStart s = s := by
  cases s with
  | nil => rfl
  | cons c s => simp [trimStart, h c rfl]

/-- What trimming takes off is white space. -/
theorem exists_trimStart (s : List Char) :
    ∃ blanks, allBlank blanks = true ∧ s = blanks ++ trimStart s :=
  ⟨s.takeWhile isBlank, by simp [allBlank, List.all_takeWhile], List.takeWhile_append_dropWhile.symm⟩

/-- White space in front of something else is what trimming takes off. -/
theorem trimStart_eq_cons_iff {c : Char} {rest : List Char} :
    trimStart s = c :: rest ↔
      isBlank c = false ∧ ∃ blanks, allBlank blanks = true ∧ s = blanks ++ c :: rest := by
  constructor
  · intro h
    have hhead := trimStart_head s
    have hs := exists_trimStart s
    rw [h] at hhead hs
    exact ⟨hhead c rfl, hs⟩
  · rintro ⟨hc, blanks, hblanks, hs⟩
    rw [hs, trimStart_append hblanks]
    exact trimStart_of_head fun d hd => Option.some.inj hd ▸ hc

end Text

namespace Markup.Token

/-! ### The grammar -/

/-- A name begins with some characters, and goes on with more. -/
inductive IsName : List Char → Prop where
  | intro {c : Char} {rest : List Char} : isNameStart c = true →
      (∀ d ∈ rest, isNameChar d = true) → IsName (c :: rest)

/-- A value in quotes of either kind. A quote of the other kind may stand inside. -/
inductive IsQuoted (value : List Char) : List Char → Prop where
  | double : '"' ∉ value → IsQuoted value ('"' :: (value ++ ['"']))
  | single : '\'' ∉ value → IsQuoted value ('\'' :: (value ++ ['\'']))

/-- An attribute, with white space in front. -/
inductive IsAttribute : String × String → List Char → Prop where
  | intro {blanks name before behind value decoded quoted : List Char} :
      blanks ≠ [] → Text.allBlank blanks = true → IsName name → Text.allBlank before = true →
      Text.allBlank behind = true → IsQuoted value quoted → Entity.Decodes value decoded →
      IsAttribute (String.ofList name, String.ofList decoded)
        (blanks ++ (name ++ (before ++ '=' :: (behind ++ quoted))))

/-- Attributes, one behind the other. -/
inductive AreAttributes : Attributes → List Char → Prop where
  | nil : AreAttributes [] []
  | cons {a : String × String} {more : Attributes} {source rest : List Char} :
      IsAttribute a source → AreAttributes more rest → AreAttributes (a :: more) (source ++ rest)

/-- The end of a tag, which says whether the element is empty. -/
def bracket : Bool → List Char
  | true => ['/', '>']
  | false => ['>']

/-- How a tag goes on behind its name: with attributes, and its end. -/
inductive IsTagEnd (a : Attributes) (isEmpty : Bool) : List Char → Prop where
  | intro {source blanks : List Char} : AreAttributes a source → Text.allBlank blanks = true →
      IsTagEnd a isEmpty (source ++ (blanks ++ bracket isEmpty))

/-- A tag without its `<`. An end tag may have what a start tag has; it is ignored. -/
inductive IsTag : Token → List Char → Prop where
  | opening {name source : List Char} {a : Attributes} {isEmpty : Bool} :
      IsName name → IsTagEnd a isEmpty source →
      IsTag (.opening (String.ofList name) a isEmpty) (name ++ source)
  | closing {name source : List Char} {a : Attributes} {isEmpty : Bool} :
      IsName name → IsTagEnd a isEmpty source →
      IsTag (.closing (String.ofList name)) ('/' :: (name ++ source))

/-- How a token is written. -/
inductive Written : Token → List Char → Prop where
  | comment {content : List Char} : Text.UpTo "-->".toList content →
      Written .aside ("<!--".toList ++ (content ++ "-->".toList))
  | verbatim {content : List Char} : Text.UpTo "]]>".toList content →
      Written (.verbatim content) ("<![CDATA[".toList ++ (content ++ "]]>".toList))
  | instruction {content : List Char} : Text.UpTo "?>".toList content →
      Written .aside ("<?".toList ++ (content ++ "?>".toList))
  | doctype {content : List Char} : Text.UpTo ">".toList content →
      Written .aside ("<!DOCTYPE".toList ++ (content ++ ">".toList))
  | tag {t : Token} {source : List Char} : IsTag t source → Written t ('<' :: source)

/-! ### Reading the pieces of a tag -/

variable {s rest : List Char}

theorem isNameChar_of_isNameStart {c : Char} (h : isNameStart c = true) : isNameChar c = true := by
  grind [isNameStart, isNameChar, Char.isAlphanum]

/-- White space is in no name. -/
theorem isBlank_of_isNameChar {c : Char} (h : isNameChar c = true) : Text.isBlank c = false := by
  have hcode : 0x2D ≤ c.toNat ∧ c.toNat ≤ 0x7A := by
    rw [isNameChar, Char.isAlphanum] at h
    delta Char.isAlpha Char.isUpper Char.isLower at h
    simp only [Bool.or_eq_true, beq_iff_eq, Char.isDigit, Bool.and_eq_true, decide_eq_true_eq,
      UInt32.le_iff_toNat_le, ge_iff_le, Char.reduceVal, UInt32.reduceToNat] at h
    rw [Char.toNat]
    rcases h with (((h | rfl) | rfl) | rfl) | rfl
    · omega
    all_goals decide
  simp only [Text.isBlank, Bool.or_eq_false_iff, Bool.and_eq_false_iff, decide_eq_false_iff_not,
    beq_eq_false_iff_ne]
  omega

/-- A name is taken off a text that begins with one and does not go on with it. -/
theorem name?_eq_some_iff {name : String} :
    name? s = some (name, rest) ↔
      ∃ source, IsName source ∧ name = String.ofList source ∧ s = source ++ rest ∧
        ∀ c ∈ rest.head?, isNameChar c = false := by
  constructor
  · intro h
    cases s with
    | nil => cases h
    | cons c s =>
      rw [name?] at h
      split at h
      · rename_i hc
        cases h
        refine ⟨c :: s.takeWhile isNameChar, ⟨hc, ?_⟩, rfl, ?_, ?_⟩
        · exact fun d hd => List.all_eq_true.1 List.all_takeWhile d hd
        · rw [List.cons_append, List.takeWhile_append_dropWhile]
        · intro d hd
          have hstop := List.head?_dropWhile_not isNameChar s
          rw [Option.mem_def.1 hd] at hstop
          simpa using hstop
      · cases h
  · rintro ⟨source, hsource, hname, hs, hrest⟩
    obtain ⟨hc, hall⟩ := hsource
    subst hname hs
    have hstop : rest.takeWhile isNameChar = [] ∧ rest.dropWhile isNameChar = rest := by
      cases rest with
      | nil => exact ⟨rfl, rfl⟩
      | cons d rest =>
        have hd := hrest d rfl
        simp [hd]
    simp [name?, hc, List.takeWhile_append_of_pos hall, List.dropWhile_append_of_pos hall, hstop]

theorem quoted?_eq_some_iff {value : List Char} :
    quoted? s = some (value, rest) ↔ ∃ source, IsQuoted value source ∧ s = source ++ rest := by
  constructor
  · intro h
    unfold quoted? at h
    split at h
    · obtain ⟨rfl, hvalue⟩ := Text.splitAtChar_eq_some_iff.1 h
      exact ⟨_, .double hvalue, by simp⟩
    · obtain ⟨rfl, hvalue⟩ := Text.splitAtChar_eq_some_iff.1 h
      exact ⟨_, .single hvalue, by simp⟩
    · cases h
  · rintro ⟨source, hsource, hs⟩
    subst hs
    cases hsource with
    | double hvalue => simpa [quoted?] using Text.splitAtChar_append hvalue rest
    | single hvalue => simpa [quoted?] using Text.splitAtChar_append hvalue rest

theorem isNameStart_of_isName {name : List Char} (h : IsName name) :
    ∃ c more, name = c :: more ∧ isNameStart c = true := by
  obtain ⟨hc, -⟩ := h
  exact ⟨_, _, rfl, hc⟩

/-- No white space is trimmed off a name. -/
theorem trimStart_of_isName {name : List Char} (h : IsName name) (rest : List Char) :
    Text.trimStart (name ++ rest) = name ++ rest := by
  obtain ⟨c, more, rfl, hc⟩ := isNameStart_of_isName h
  exact Text.trimStart_of_head fun d hd =>
    Option.some.inj hd ▸ isBlank_of_isNameChar (isNameChar_of_isNameStart hc)

/-- No white space is trimmed off a quote. -/
theorem trimStart_of_isQuoted {value quoted : List Char} (h : IsQuoted value quoted)
    (rest : List Char) : Text.trimStart (quoted ++ rest) = quoted ++ rest := by
  cases h <;> exact Text.trimStart_of_head fun d hd => Option.some.inj hd ▸ by decide

/-- Behind white space no name goes on. -/
theorem isNameChar_head {blanks : List Char} (hblanks : Text.allBlank blanks = true)
    (hs : blanks = [] → ∀ c ∈ s.head?, isNameChar c = false) :
    ∀ c ∈ (blanks ++ s).head?, isNameChar c = false := by
  cases blanks with
  | nil => exact hs rfl
  | cons b blanks =>
    intro c hc
    obtain rfl : b = c := Option.some.inj hc
    have hb : Text.isBlank b = true := by
      simp only [Text.allBlank, List.all_cons, Bool.and_eq_true] at hblanks
      exact hblanks.1
    cases hname : isNameChar b with
    | false => rfl
    | true => simp [isBlank_of_isNameChar hname] at hb

theorem attribute?_eq_some_iff {a : String × String} :
    attribute? s = some (a, rest) ↔ ∃ source, IsAttribute a source ∧ s = source ++ rest := by
  constructor
  · intro h
    simp only [attribute?, Option.bind_eq_bind] at h
    split at h
    · rename_i hlt
      simp only [Option.pure_def, Option.bind_eq_some_iff] at h
      obtain ⟨⟨name, r⟩, hn, h⟩ := h
      simp only at h
      split at h
      · rename_i r' hr
        obtain ⟨⟨value, r''⟩, hq, h⟩ := Option.bind_eq_some_iff.1 h
        cases h
        obtain ⟨nameSource, hname, rfl, hnamed, -⟩ := name?_eq_some_iff.1 hn
        obtain ⟨-, before, hbefore, rfl⟩ := Text.trimStart_eq_cons_iff.1 hr
        obtain ⟨quoted, hquoted, hvalue⟩ := quoted?_eq_some_iff.1 hq
        obtain ⟨behind, hbehind, hr'⟩ := Text.exists_trimStart r'
        obtain ⟨blanks, hblanks, hs⟩ := Text.exists_trimStart s
        have hdecoded : Entity.Decodes value (Entity.decode value) := Entity.decodes_iff.2 rfl
        refine ⟨_, .intro ?_ hblanks hname hbefore hbehind hquoted hdecoded, ?_⟩
        · intro hnil
          rw [hnil, List.nil_append] at hs
          rw [← hs] at hlt
          exact Nat.lt_irrefl _ hlt
        · rw [hs, hnamed, hr', hvalue]
          simp only [List.append_assoc, List.cons_append]
      · cases h
    · cases h
  · rintro ⟨source, hsource, hs⟩
    subst hs
    obtain @⟨blanks, name, before, behind, value, _, quoted, hne, hblanks, hname, hbefore, hbehind,
      hquoted, hdecoded⟩ := hsource
    obtain rfl := Entity.decodes_iff.1 hdecoded
    have hnamed : Text.trimStart (blanks ++ (name ++ (before ++ '=' :: (behind ++ (quoted ++ rest))))) =
        name ++ (before ++ '=' :: (behind ++ (quoted ++ rest))) := by
      rw [Text.trimStart_append hblanks, trimStart_of_isName hname]
    have hread : name? (name ++ (before ++ '=' :: (behind ++ (quoted ++ rest)))) =
        some (String.ofList name, before ++ '=' :: (behind ++ (quoted ++ rest))) :=
      name?_eq_some_iff.2 ⟨name, hname, rfl, rfl,
        isNameChar_head hbefore fun _ d hd => Option.some.inj hd ▸ by decide⟩
    have hequals : Text.trimStart (before ++ '=' :: (behind ++ (quoted ++ rest))) =
        '=' :: (behind ++ (quoted ++ rest)) :=
      Text.trimStart_eq_cons_iff.2 ⟨by decide, before, hbefore, rfl⟩
    have hvalue : quoted? (Text.trimStart (behind ++ (quoted ++ rest))) = some (value, rest) := by
      rw [Text.trimStart_append hbehind, trimStart_of_isQuoted hquoted]
      exact quoted?_eq_some_iff.2 ⟨quoted, hquoted, rfl⟩
    have hshorter : ∀ l : List Char, l.length < (blanks ++ l).length := fun l => by
      have := List.length_pos_iff.2 hne
      rw [List.length_append]
      omega
    simp only [attribute?, List.append_assoc, List.cons_append, hnamed, hshorter, if_true, hread,
      Option.bind_eq_bind, Option.bind_some, hequals, hvalue, Option.pure_def]

/-- No attribute begins with a character that no name begins with. -/
theorem attribute?_eq_none {blanks : List Char} (hblanks : Text.allBlank blanks = true) {c : Char}
    (hblank : Text.isBlank c = false) (hstart : isNameStart c = false) (rest : List Char) :
    attribute? (blanks ++ c :: rest) = none := by
  have htrim : Text.trimStart (blanks ++ c :: rest) = c :: rest :=
    Text.trimStart_eq_cons_iff.2 ⟨hblank, blanks, hblanks, rfl⟩
  simp only [attribute?, htrim, name?, hstart, Option.bind_eq_bind]
  simp

/-- Attributes are taken off as long as there is one. -/
theorem attributes_eq_iff {a : Attributes} :
    attributes s = (a, rest) ↔
      ∃ source, AreAttributes a source ∧ s = source ++ rest ∧ attribute? rest = none := by
  constructor
  · intro h
    fun_induction attributes s generalizing a rest with
    | case1 s first r hfirst more rest' hmore ih =>
      cases h
      obtain ⟨source, hsource, rfl⟩ := attribute?_eq_some_iff.1 hfirst
      obtain ⟨behind, hbehind, rfl, hnone⟩ := ih hmore
      exact ⟨source ++ behind, .cons hsource hbehind, (List.append_assoc ..).symm, hnone⟩
    | case2 s hnone =>
      cases h
      exact ⟨[], .nil, rfl, hnone⟩
  · rintro ⟨source, hsource, hs, hnone⟩
    subst hs
    induction hsource with
    | nil =>
      rw [List.nil_append, attributes]
      split
      · rename_i hread
        rw [hnone] at hread
        cases hread
      · rfl
    | @cons first more source behind hfirst _ ih =>
      have hread : attribute? (source ++ (behind ++ rest)) = some (first, behind ++ rest) :=
        attribute?_eq_some_iff.2 ⟨source, hfirst, rfl⟩
      rw [List.append_assoc, attributes]
      split
      · rename_i hread'
        rw [hread] at hread'
        cases hread'
        rw [ih]
      · rename_i hread'
        rw [hread] at hread'
        cases hread'

/-! ### Searching for attributes -/

/-- The attribute at the head of the text, with no white space in front. -/
def bare? (s : List Char) : Option ((String × String) × List Char) := do
  let (name, rest) ← name? s
  match Text.trimStart rest with
  | '=' :: rest =>
    let (value, rest) ← quoted? (Text.trimStart rest)
    return ((name, String.ofList (Entity.decode value)), rest)
  | _ => none

/-- An attribute is one behind white space. -/
theorem attribute?_append {blanks : List Char} (hne : blanks ≠ [])
    (hblanks : Text.allBlank blanks = true) (hs : Text.trimStart s = s) :
    attribute? (blanks ++ s) = bare? s := by
  have hlt : s.length < (blanks ++ s).length := by
    have := List.length_pos_iff.2 hne
    rw [List.length_append]
    omega
  simp only [attribute?, Text.trimStart_append hblanks, hs, if_pos hlt]
  rfl

theorem bare?_eq_none {c : Char} (h : isNameStart c = false) (s : List Char) :
    bare? (c :: s) = none := by
  simp [bare?, name?, h]

theorem bare?_length {a : String × String} (h : bare? s = some (a, rest)) :
    rest.length < s.length := by
  have htrim : Text.trimStart s = s := by
    cases s with
    | nil => rfl
    | cons c s =>
      refine Text.trimStart_of_head fun d hd => ?_
      obtain rfl : c = d := Option.some.inj hd
      cases hc : isNameStart c with
      | true => exact isBlank_of_isNameChar (isNameChar_of_isNameStart hc)
      | false =>
        rw [bare?_eq_none hc] at h
        cases h
  rw [← attribute?_append (List.cons_ne_nil ' ' []) (by decide) htrim] at h
  obtain ⟨source, ⟨hne, -, hname, -⟩, hs⟩ := attribute?_eq_some_iff.1 h
  obtain ⟨c, more, rfl, -⟩ := isNameStart_of_isName hname
  have hblanks := List.length_pos_iff.2 hne
  have hlength := congrArg List.length hs
  simp only [List.length_append, List.length_cons, List.length_nil] at hlength
  omega

/-- The attributes that stand somewhere in the text, whatever stands between them. -/
def found : List Char → Attributes
  | [] => []
  | c :: s =>
    match _h : bare? (c :: s) with
    | some (a, rest) => a :: found rest
    | none => found s
termination_by s => s.length
decreasing_by
  · exact bare?_length ‹_›
  · simp

theorem found_of_bare {a : String × String} (h : bare? s = some (a, rest)) :
    found s = a :: found rest := by
  cases s with
  | nil => cases h
  | cons c s =>
    rw [found]
    split
    · rename_i h'
      rw [h] at h'
      cases h'
      rfl
    · rename_i h'
      rw [h] at h'
      cases h'

/-- White space holds no attribute. -/
theorem found_append {blanks : List Char} (hblanks : Text.allBlank blanks = true) (s : List Char) :
    found (blanks ++ s) = found s := by
  induction blanks with
  | nil => rfl
  | cons b blanks ih =>
    simp only [Text.allBlank, List.all_cons, Bool.and_eq_true] at hblanks
    have hstart : isNameStart b = false := by
      cases hb : isNameStart b with
      | false => rfl
      | true =>
        have hplain := isBlank_of_isNameChar (isNameChar_of_isNameStart hb)
        rw [hblanks.1] at hplain
        cases hplain
    rw [List.cons_append, found]
    split
    · rename_i h
      rw [bare?_eq_none hstart] at h
      cases h
    · exact ih hblanks.2

/-- Whoever searches for attributes finds those that stand one behind the other. -/
theorem found_of_areAttributes {a : Attributes} {source : List Char} (h : AreAttributes a source) :
    found source = a := by
  induction h with
  | nil => rw [found]
  | @cons first more _ rest hfirst _ ih =>
    obtain @⟨blanks, name, before, behind, value, decoded, quoted, hne, hblanks, hname, hbefore,
      hbehind, hquoted, hdecoded⟩ := hfirst
    have hread : bare? ((name ++ (before ++ '=' :: (behind ++ quoted))) ++ rest) =
        some ((String.ofList name, String.ofList decoded), rest) := by
      rw [← attribute?_append hne hblanks (by rw [List.append_assoc, trimStart_of_isName hname])]
      exact attribute?_eq_some_iff.2
        ⟨_, .intro hne hblanks hname hbefore hbehind hquoted hdecoded,
          (List.append_assoc ..).symm⟩
    rw [List.append_assoc, found_append hblanks, found_of_bare hread, ih]

/-- It makes no difference whether the attributes of a tag are read one by one, or searched for
in all that stands before its end. -/
theorem found_attributes (s : List Char) :
    ∃ source, s = source ++ (attributes s).2 ∧ found source = (attributes s).1 := by
  obtain ⟨source, hsource, hs, -⟩ := attributes_eq_iff.1 (Prod.eta (attributes s)).symm
  exact ⟨source, hs, found_of_areAttributes hsource⟩

/-! ### Reading tags -/

/-- Whether the text begins with a slash, and the text without it. -/
def slash : List Char → Bool × List Char
  | '/' :: s => (true, s)
  | s => (false, s)

theorem slash_bracket (isEmpty : Bool) (rest : List Char) :
    slash (bracket isEmpty ++ rest) = (isEmpty, '>' :: rest) := by
  cases isEmpty <;> rfl

theorem eq_bracket_of_slash (h : (slash s).2 = '>' :: rest) : s = bracket (slash s).1 ++ rest := by
  unfold slash at h ⊢
  split <;> simp_all [bracket]

/-- What stands behind the name of a tag: its attributes, whether it is empty, and the text
behind it. -/
def tagEnd? (s : List Char) : Option (Attributes × Bool × List Char) :=
  match (slash (Text.trimStart (attributes s).2)).2 with
  | '>' :: rest => some ((attributes s).1, (slash (Text.trimStart (attributes s).2)).1, rest)
  | _ => none

theorem tagEnd?_of_bracket (h : (slash (Text.trimStart (attributes s).2)).2 = '>' :: rest) :
    tagEnd? s = some ((attributes s).1, (slash (Text.trimStart (attributes s).2)).1, rest) := by
  rw [tagEnd?, h]
  rfl

theorem tagEnd?_eq_none (h : ∀ rest, (slash (Text.trimStart (attributes s).2)).2 ≠ '>' :: rest) :
    tagEnd? s = none := by
  rw [tagEnd?]
  split
  · exact absurd ‹_› (h _)
  · rfl

theorem tagEnd?_eq_some_iff {a : Attributes} {isEmpty : Bool} :
    tagEnd? s = some (a, isEmpty, rest) ↔ ∃ source, IsTagEnd a isEmpty source ∧ s = source ++ rest := by
  constructor
  · intro h
    obtain ⟨source, hsource, hs, -⟩ := attributes_eq_iff.1 (Prod.eta (attributes s)).symm
    obtain ⟨blanks, hblanks, htrim⟩ := Text.exists_trimStart (attributes s).2
    rw [tagEnd?] at h
    split at h
    · rename_i hend
      cases h
      refine ⟨_, .intro hsource hblanks, ?_⟩
      rw [List.append_assoc, List.append_assoc, ← eq_bracket_of_slash hend, ← htrim, ← hs]
    · cases h
  · rintro ⟨source, hend, hs⟩
    subst hs
    obtain @⟨source, blanks, hsource, hblanks⟩ := hend
    have hnone : attribute? (blanks ++ (bracket isEmpty ++ rest)) = none := by
      cases isEmpty <;> exact attribute?_eq_none hblanks (by decide) (by decide) _
    have htrim : Text.trimStart (blanks ++ (bracket isEmpty ++ rest)) = bracket isEmpty ++ rest := by
      cases isEmpty <;> exact Text.trimStart_eq_cons_iff.2 ⟨by decide, blanks, hblanks, rfl⟩
    have hread : attributes (source ++ (blanks ++ (bracket isEmpty ++ rest))) =
        (a, blanks ++ (bracket isEmpty ++ rest)) :=
      attributes_eq_iff.2 ⟨source, hsource, rfl, hnone⟩
    simp only [tagEnd?, List.append_assoc, hread, htrim, slash_bracket]

theorem tag?_eq (s : List Char) :
    tag? s = (name? (slash s).2).bind fun named => (tagEnd? named.2).map fun tail =>
      (if (slash s).1 then .closing named.1 else .opening named.1 tail.1 tail.2.1, tail.2.2) := by
  simp only [tag?, Option.bind_eq_bind, Option.pure_def]
  refine congrArg _ (funext fun named => ?_)
  split
  · rename_i hend
    rw [tagEnd?_of_bracket hend]
    rfl
  · rename_i hend
    rw [tagEnd?_eq_none hend]
    rfl

/-- Behind its name a tag goes on with something that is in no name. -/
theorem isNameChar_of_isTagEnd {a : Attributes} {isEmpty : Bool} {source : List Char}
    (h : IsTagEnd a isEmpty source) (rest : List Char) :
    ∀ c ∈ (source ++ rest).head?, isNameChar c = false := by
  obtain ⟨hsource, hblanks⟩ := h
  cases hsource with
  | nil =>
    rw [List.nil_append, List.append_assoc]
    refine isNameChar_head hblanks fun _ c hc => ?_
    cases isEmpty <;> exact Option.some.inj hc ▸ by decide
  | cons hfirst _ =>
    obtain ⟨hne, hblank, -⟩ := hfirst
    simp only [List.append_assoc]
    exact isNameChar_head hblank fun hnil => absurd hnil hne

/-- A name and the end of its tag are taken off one behind the other. -/
theorem named_tail {name source : List Char} {a : Attributes} {isEmpty : Bool}
    (hname : IsName name) (hend : IsTagEnd a isEmpty source) (rest : List Char) :
    name? (name ++ (source ++ rest)) = some (String.ofList name, source ++ rest) ∧
      tagEnd? (source ++ rest) = some (a, isEmpty, rest) :=
  ⟨name?_eq_some_iff.2 ⟨name, hname, rfl, rfl, isNameChar_of_isTagEnd hend rest⟩,
    tagEnd?_eq_some_iff.2 ⟨source, hend, rfl⟩⟩

theorem tag?_eq_some_iff {t : Token} :
    tag? s = some (t, rest) ↔ ∃ source, IsTag t source ∧ s = source ++ rest := by
  rw [tag?_eq]
  constructor
  · intro h
    obtain ⟨⟨name, after⟩, hn, h⟩ := Option.bind_eq_some_iff.1 h
    obtain ⟨⟨a, isEmpty, tail⟩, he, h⟩ := Option.map_eq_some_iff.1 h
    cases h
    obtain ⟨nameSource, hname, rfl, hs, -⟩ := name?_eq_some_iff.1 hn
    obtain ⟨source, hend, hafter⟩ := tagEnd?_eq_some_iff.1 he
    simp only at hafter
    rw [hafter] at hs
    unfold slash at hs ⊢
    split at hs
    · refine ⟨_, .closing hname hend, ?_⟩
      rw [List.cons_append, List.append_assoc]
      exact congrArg ('/' :: ·) hs
    · refine ⟨_, .opening hname hend, ?_⟩
      rw [List.append_assoc]
      exact hs
  · rintro ⟨source, htag, hs⟩
    subst hs
    cases htag with
    | @opening name source a isEmpty hname hend =>
      obtain ⟨hnamed, htail⟩ := named_tail hname hend rest
      have hslash : slash (name ++ source ++ rest) = (false, name ++ (source ++ rest)) := by
        obtain ⟨c, more, rfl, hc⟩ := isNameStart_of_isName hname
        have hother : c ≠ '/' := by
          intro he
          rw [he] at hc
          exact absurd hc (by decide)
        simp [slash, hother]
      rw [hslash]
      simp only [hnamed, Option.bind_some, htail, Option.map_some]
      rfl
    | @closing name source a isEmpty hname hend =>
      obtain ⟨hnamed, htail⟩ := named_tail hname hend rest
      have hslash : slash ('/' :: (name ++ source) ++ rest) = (true, name ++ (source ++ rest)) := by
        rw [List.cons_append, List.append_assoc]
        rfl
      rw [hslash]
      simp only [hnamed, Option.bind_some, htail, Option.map_some]
      rfl

/-! ### Reading tokens -/

theorem between?_eq_some_iff {opening closing : String} {content : List Char} :
    between? opening closing s = some (content, rest) ↔
      s = opening.toList ++ (content ++ (closing.toList ++ rest)) ∧
        Text.UpTo closing.toList content := by
  rw [between?, Option.bind_eq_some_iff]
  constructor
  · rintro ⟨r, hdrop, hsplit⟩
    obtain ⟨hr, hup⟩ := Text.splitAtWord_eq_some_iff.1 hsplit
    exact ⟨hr ▸ Text.dropWord_eq_some_iff.1 hdrop, hup⟩
  · rintro ⟨hs, hup⟩
    exact ⟨_, Text.dropWord_eq_some_iff.2 hs, Text.splitAtWord_eq_some_iff.2 ⟨rfl, hup⟩⟩

/-- A token that is made of what stands between two words. -/
theorem token_between?_eq_some_iff {opening closing : String} {t : Token} (f : List Char → Token) :
    (between? opening closing s).map (fun (content, rest) => (f content, rest)) = some (t, rest) ↔
      ∃ content, t = f content ∧ Text.UpTo closing.toList content ∧
        s = opening.toList ++ (content ++ (closing.toList ++ rest)) := by
  rw [Option.map_eq_some_iff]
  constructor
  · rintro ⟨⟨content, r⟩, hread, he⟩
    cases he
    obtain ⟨hs, hup⟩ := between?_eq_some_iff.1 hread
    exact ⟨content, rfl, hup, hs⟩
  · rintro ⟨content, ht, hup, hs⟩
    exact ⟨(content, rest), between?_eq_some_iff.2 ⟨hs, hup⟩, by rw [ht]⟩

theorem aside?_eq_some_iff {opening closing : String} {t : Token} :
    aside? opening closing s = some (t, rest) ↔
      ∃ content, t = .aside ∧ Text.UpTo closing.toList content ∧
        s = opening.toList ++ (content ++ (closing.toList ++ rest)) :=
  token_between?_eq_some_iff fun _ => .aside

theorem verbatim?_eq_some_iff {opening closing : String} {t : Token} :
    verbatim? opening closing s = some (t, rest) ↔
      ∃ content, t = .verbatim content ∧ Text.UpTo closing.toList content ∧
        s = opening.toList ++ (content ++ (closing.toList ++ rest)) :=
  token_between?_eq_some_iff .verbatim

theorem aside?_eq_none (opening : String) {closing : String}
    (h : Text.dropWord opening.toList s = none) : aside? opening closing s = none := by
  rw [aside?, between?, h]
  rfl

theorem verbatim?_eq_none (opening : String) {closing : String}
    (h : Text.dropWord opening.toList s = none) : verbatim? opening closing s = none := by
  rw [verbatim?, between?, h]
  rfl

/-- Behind another first character no opening word stands. -/
theorem dropWord_eq_none {w c : Char} (h : w ≠ c) (word s : List Char) :
    Text.dropWord (w :: word) (c :: s) = none := by
  rw [Text.dropWord, if_neg h]

/-- A tag begins with a slash or a name, no other token does. -/
theorem isTag_head {t : Token} {source : List Char} (h : IsTag t source) :
    ∃ c more, source = c :: more ∧ '!' ≠ c ∧ '?' ≠ c := by
  cases h with
  | opening hname _ =>
    obtain ⟨c, more, rfl, hc⟩ := isNameStart_of_isName hname
    refine ⟨c, _, List.cons_append .., ?_, ?_⟩ <;> exact fun he => absurd (he ▸ hc) (by decide)
  | closing _ _ => exact ⟨'/', _, rfl, by decide, by decide⟩

/-- The scanner takes a token off a text if and only if the text begins with one as it is
written. -/
theorem scan?_eq_some_iff {t : Token} :
    scan? s = some (t, rest) ↔ ∃ source, Written t source ∧ '<' :: s = source ++ rest := by
  constructor
  · intro h
    simp only [scan?, Option.orElse_eq_orElse, Option.orElse_eq_or, Option.or_eq_some_iff] at h
    rcases h with h | ⟨-, h | ⟨-, h | ⟨-, h | ⟨-, h⟩⟩⟩⟩
    · obtain ⟨content, rfl, hup, rfl⟩ := aside?_eq_some_iff.1 h
      exact ⟨_, .comment hup, by simp⟩
    · obtain ⟨content, rfl, hup, rfl⟩ := verbatim?_eq_some_iff.1 h
      exact ⟨_, .verbatim hup, by simp⟩
    · obtain ⟨content, rfl, hup, rfl⟩ := aside?_eq_some_iff.1 h
      exact ⟨_, .instruction hup, by simp⟩
    · obtain ⟨content, rfl, hup, rfl⟩ := aside?_eq_some_iff.1 h
      exact ⟨_, .doctype hup, by simp⟩
    · obtain ⟨source, htag, rfl⟩ := tag?_eq_some_iff.1 h
      exact ⟨_, .tag htag, rfl⟩
  · rintro ⟨source, hwritten, hs⟩
    cases hwritten with
    | @comment content hup =>
      have hs' : s = "!--".toList ++ (content ++ ("-->".toList ++ rest)) := by simpa using hs
      rw [scan?, aside?_eq_some_iff.2 ⟨content, rfl, hup, hs'⟩]
      rfl
    | @verbatim content hup =>
      have hs' : s = "![CDATA[".toList ++ (content ++ ("]]>".toList ++ rest)) := by simpa using hs
      have hread := verbatim?_eq_some_iff.2 ⟨content, rfl, hup, hs'⟩
      subst hs'
      rw [scan?, aside?_eq_none "!--" rfl, hread]
      rfl
    | @instruction content hup =>
      have hs' : s = "?".toList ++ (content ++ ("?>".toList ++ rest)) := by simpa using hs
      have hread := aside?_eq_some_iff.2 ⟨content, rfl, hup, hs'⟩
      subst hs'
      rw [scan?, aside?_eq_none "!--" rfl, verbatim?_eq_none "![CDATA[" rfl, hread]
      rfl
    | @doctype content hup =>
      have hs' : s = "!DOCTYPE".toList ++ (content ++ (">".toList ++ rest)) := by simpa using hs
      have hread := aside?_eq_some_iff.2 ⟨content, rfl, hup, hs'⟩
      subst hs'
      rw [scan?, aside?_eq_none "!--" rfl, verbatim?_eq_none "![CDATA[" rfl,
        aside?_eq_none "?" rfl, hread]
      rfl
    | @tag t source htag =>
      obtain rfl : s = source ++ rest := by simpa using hs
      have hread : tag? (source ++ rest) = some (t, rest) := tag?_eq_some_iff.2 ⟨source, htag, rfl⟩
      obtain ⟨c, more, rfl, hmark, hquery⟩ := isTag_head htag
      rw [List.cons_append] at hread ⊢
      rw [scan?, aside?_eq_none "!--" (dropWord_eq_none hmark _ _),
        verbatim?_eq_none "![CDATA[" (dropWord_eq_none hmark _ _),
        aside?_eq_none "?" (dropWord_eq_none hquery _ _),
        aside?_eq_none "!DOCTYPE" (dropWord_eq_none hmark _ _), hread]
      rfl

end Markup.Token

end SqlMaps
