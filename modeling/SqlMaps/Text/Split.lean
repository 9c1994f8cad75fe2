/-! Cutting a text at a character, at a word, or at a number of bytes. -/
namespace SqlMaps.Text

/-- How many bytes the text takes in UTF-8. -/
def byteLength : List Char → Nat
  | [] => 0
  | c :: s => c.utf8Size + byteLength s

/-- What stands before and after the first occurrence of the character. -/
def splitAtChar (c : Char) : List Char → Option (List Char × List Char)
  | [] => none
  | d :: rest =>
    if d = c then some ([], rest)
    else (splitAtChar c rest).map fun (before, after) => (d :: before, after)

/-- What stands before and after a number of bytes, unless they end inside a character or behind
the text. -/
def splitAtByte : Nat → List Char → Option (List Char × List Char)
  | 0, s => some ([], s)
  | _ + 1, [] => none
  | n + 1, c :: s =>
    if c.utf8Size ≤ n + 1 then
      (splitAtByte (n + 1 - c.utf8Size) s).map fun (before, after) => (c :: before, after)
    else none

/-- So many bytes of the text behind its first `start`, if whole characters make them up. -/
def slice? (start length : Nat) (s : List Char) : Option (List Char) := do
  let (_, rest) ← splitAtByte start s
  (splitAtByte length rest).map Prod.fst

/-- What follows the word, if the text begins with it. -/
def dropWord : List Char → List Char → Option (List Char)
  | [], s => some s
  | _ :: _, [] => none
  | w :: word, c :: s => if w = c then dropWord word s else none

/-- What stands before and after the first occurrence of the word. -/
def splitAtWord (word : List Char) : List Char → Option (List Char × List Char)
  | [] => (dropWord word []).map fun rest => ([], rest)
  | c :: s =>
    match dropWord word (c :: s) with
    | some rest => some ([], rest)
    | none => (splitAtWord word s).map fun (before, after) => (c :: before, after)

theorem dropWord_eq_some_iff {word s rest : List Char} :
    dropWord word s = some rest ↔ s = word ++ rest := by
  induction word generalizing s with
  | nil => simp [dropWord]
  | cons w word ih =>
    cases s with
    | nil => simp [dropWord]
    | cons c s =>
      by_cases h : w = c
      · simp [dropWord, h, ih]
      · simp [dropWord, h]
        intro h'
        exact absurd h'.symm h

theorem splitAtWord_eq_append {word s before after : List Char}
    (h : splitAtWord word s = some (before, after)) : s = before ++ (word ++ after) := by
  induction s generalizing before with
  | nil =>
    simp only [splitAtWord, Option.map_eq_some_iff] at h
    obtain ⟨rest, hr, he⟩ := h
    simp only [Prod.mk.injEq] at he
    obtain ⟨rfl, rfl⟩ := he
    simpa using dropWord_eq_some_iff.1 hr
  | cons c s ih =>
    rw [splitAtWord] at h
    split at h
    · rename_i rest hr
      simp only [Option.some.injEq, Prod.mk.injEq] at h
      obtain ⟨rfl, rfl⟩ := h
      simpa using dropWord_eq_some_iff.1 hr
    · obtain ⟨p, hp, he⟩ := Option.map_eq_some_iff.1 h
      simp only [Prod.mk.injEq] at he
      obtain ⟨rfl, rfl⟩ := he
      simp [ih hp]

theorem splitAtChar_eq_append {c : Char} {s before after : List Char}
    (h : splitAtChar c s = some (before, after)) : s = before ++ c :: after := by
  induction s generalizing before with
  | nil => simp [splitAtChar] at h
  | cons d s ih =>
    rw [splitAtChar] at h
    split at h
    · rename_i hd
      simp only [Option.some.injEq, Prod.mk.injEq] at h
      obtain ⟨rfl, rfl⟩ := h
      simp [hd]
    · obtain ⟨p, hp, he⟩ := Option.map_eq_some_iff.1 h
      simp only [Prod.mk.injEq] at he
      obtain ⟨rfl, rfl⟩ := he
      simp [ih hp]

theorem byteLength_append (s t : List Char) :
    byteLength (s ++ t) = byteLength s + byteLength t := by
  induction s with
  | nil => simp [byteLength]
  | cons c s ih => simp [byteLength, ih, Nat.add_assoc]

theorem splitAtByte_append (before s : List Char) (n : Nat) :
    splitAtByte (byteLength before + n) (before ++ s) =
      (splitAtByte n s).map fun (part, after) => (before ++ part, after) := by
  induction before with
  | nil => simp [byteLength]
  | cons c before ih =>
    obtain ⟨k, hk⟩ : ∃ k, c.utf8Size = k + 1 := Nat.exists_eq_add_one.2 c.utf8Size_pos
    have hlength : byteLength (c :: before) + n = k + byteLength before + n + 1 := by
      rw [byteLength, hk]
      omega
    have hbehind : k + byteLength before + n + 1 - (k + 1) = byteLength before + n := by omega
    rw [hlength, List.cons_append, splitAtByte, hk, if_pos (by omega), hbehind, ih, Option.map_map]
    rfl

theorem splitAtByte_eq_some_iff {n : Nat} {s before after : List Char} :
    splitAtByte n s = some (before, after) ↔ s = before ++ after ∧ byteLength before = n := by
  constructor
  · intro h
    induction s generalizing n before with
    | nil =>
      cases n with
      | zero =>
        simp only [splitAtByte, Option.some.injEq, Prod.mk.injEq] at h
        obtain ⟨rfl, rfl⟩ := h
        exact ⟨rfl, rfl⟩
      | succ n => cases h
    | cons c s ih =>
      cases n with
      | zero =>
        simp only [splitAtByte, Option.some.injEq, Prod.mk.injEq] at h
        obtain ⟨rfl, rfl⟩ := h
        exact ⟨rfl, rfl⟩
      | succ n =>
        rw [splitAtByte] at h
        split at h
        · rename_i hfits
          obtain ⟨p, hp, he⟩ := Option.map_eq_some_iff.1 h
          simp only [Prod.mk.injEq] at he
          obtain ⟨rfl, rfl⟩ := he
          obtain ⟨hs, hlength⟩ := ih hp
          refine ⟨by rw [hs, List.cons_append], ?_⟩
          rw [byteLength, hlength]
          omega
        · cases h
  · rintro ⟨rfl, rfl⟩
    simpa [splitAtByte] using splitAtByte_append before after 0

/-- What stands in front of a part only moves it. -/
theorem slice?_append (before s : List Char) (start length : Nat) :
    slice? (byteLength before + start) length (before ++ s) = slice? start length s := by
  rw [slice?, splitAtByte_append, slice?]
  cases splitAtByte start s <;> rfl

theorem slice?_zero_eq_some_iff {length : Nat} {s part : List Char} :
    slice? 0 length s = some part ↔ ∃ after, s = part ++ after ∧ byteLength part = length := by
  have hfront : slice? 0 length s = (splitAtByte length s).map Prod.fst := by
    rw [slice?, splitAtByte]
    rfl
  rw [hfront, Option.map_eq_some_iff]
  constructor
  · rintro ⟨⟨part, after⟩, hp, rfl⟩
    exact ⟨after, splitAtByte_eq_some_iff.1 hp⟩
  · rintro ⟨after, h⟩
    exact ⟨(part, after), splitAtByte_eq_some_iff.2 h, rfl⟩

end SqlMaps.Text
