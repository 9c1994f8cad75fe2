import SqlMaps.Value.Basic

/-! Which characters the text of a value is made of.

Numbers are written with digits and a few marks (`mem_displayText`), timestamps with
digits and their separators (`mem_write`), and bytes with hexadecimal digits
(`mem_ofBytes`). None of them holds a quote, so the only quotes in the text of a value
are those around the digits of bytes and those that a text brings along. -/
namespace SqlMaps

namespace Number

/-- What stands beside the digits in the text of a number. -/
def marks : List Char := ['-', '.', 'e', 'N', 'a', 'i', 'n', 'f']

/-- Whether the text of a number can hold the character. -/
def isNumberChar (c : Char) : Bool :=
  c.isDigit || marks.contains c

theorem bounds_of_isDigit {c : Char} (h : c.isDigit = true) : '0' ≤ c ∧ c ≤ '9' := by
  simp only [Char.isDigit, Bool.and_eq_true, decide_eq_true_eq] at h
  exact h

theorem isNumberChar_of_isDigit {c : Char} (h : c.isDigit = true) : isNumberChar c = true := by
  simp [isNumberChar, h]

theorem mem_digits {n : Nat} {c : Char} (h : c ∈ digits n) : c.isDigit = true :=
  Nat.isDigit_of_mem_toDigits (by decide) (by decide) h

theorem mem_ofInt {i : Int} {c : Char} (h : c ∈ ofInt i) : isNumberChar c = true := by
  cases i with
  | ofNat n => exact isNumberChar_of_isDigit (mem_digits h)
  | negSucc n =>
    rcases List.mem_cons.mp h with rfl | h
    · decide
    · exact isNumberChar_of_isDigit (mem_digits h)

/-- The digits that are left without the zeros at the end are still digits. -/
theorem mem_split {x : Shortest.Decimal} {c : Char} (h : c ∈ x.split.1) : c.isDigit = true := by
  rw [Shortest.Decimal.split, List.mem_reverse] at h
  exact mem_digits (List.mem_reverse.mp ((List.dropWhile_sublist _).mem h))

namespace RealLayout

/-- What a whole number ends in is a mark or a digit. -/
def Plain (layout : RealLayout) : Prop :=
  ∀ c ∈ layout.wholeEnd, isNumberChar c = true

theorem plain_display : display.Plain := by
  intro c h
  cases h

theorem mem_positionalText {layout : RealLayout} (hl : layout.Plain) {ds : List Char}
    (hd : ∀ c ∈ ds, c.isDigit = true) {places : Int} {c : Char}
    (h : c ∈ layout.positionalText ds places) : isNumberChar c = true := by
  have hdigit : ∀ c ∈ ds, isNumberChar c = true := fun c hc => isNumberChar_of_isDigit (hd c hc)
  have hzero : ∀ n, c ∈ List.replicate n '0' → isNumberChar c = true := by
    intro n hc
    rw [List.eq_of_mem_replicate hc]
    decide
  unfold positionalText at h
  split at h
  · simp only [List.cons_append, List.mem_cons, List.mem_append] at h
    rcases h with rfl | rfl | h | h
    · decide
    · decide
    · exact hzero _ h
    · exact hdigit c h
  · split at h
    · simp only [List.mem_append] at h
      rcases h with (h | h) | h
      · exact hdigit c h
      · exact hzero _ h
      · exact hl c h
    · simp only [List.mem_append, List.mem_cons] at h
      rcases h with h | rfl | h
      · exact hdigit c (List.mem_of_mem_take h)
      · decide
      · exact hdigit c (List.mem_of_mem_drop h)

theorem mem_exponentText {ds : List Char} (hd : ∀ c ∈ ds, c.isDigit = true) {places : Int}
    {c : Char} (h : c ∈ exponentText ds places) : isNumberChar c = true := by
  have hdigit : ∀ c ∈ ds, isNumberChar c = true := fun c hc => isNumberChar_of_isDigit (hd c hc)
  have hpower : c ∈ 'e' :: Number.ofInt (places - 1) → isNumberChar c = true := by
    intro hc
    rcases List.mem_cons.mp hc with rfl | hc
    · decide
    · exact mem_ofInt hc
  unfold exponentText at h
  split at h
  · exact hpower h
  · rcases List.mem_cons.mp h with rfl | h
    · exact hdigit _ (List.mem_cons_self ..)
    · exact hpower h
  · rename_i d rest _
    rcases List.mem_cons.mp h with rfl | h
    · exact hdigit _ (List.mem_cons_self ..)
    · rcases List.mem_append.mp h with h | h
      · rcases List.mem_cons.mp h with rfl | h
        · decide
        · exact hdigit _ (List.mem_cons_of_mem _ h)
      · exact hpower h

theorem mem_magnitudeText {layout : RealLayout} (hl : layout.Plain) {m : Nat} {q : Int} {c : Char}
    (h : c ∈ layout.magnitudeText m q) : isNumberChar c = true := by
  have hd : ∀ c ∈ (Shortest.shortest m q).split.1, c.isDigit = true := fun c hc => mem_split hc
  unfold magnitudeText at h
  split at h
  · rcases List.mem_cons.mp h with rfl | h
    · decide
    · exact hl c h
  · dsimp only at h
    split at h
    · exact mem_positionalText hl hd h
    · split at h
      · exact mem_positionalText hl hd h
      · exact mem_exponentText hd h

theorem mem_write {layout : RealLayout} (hl : layout.Plain) {x : Binary64} {c : Char}
    (h : c ∈ layout.write x) : isNumberChar c = true := by
  have hsign : ∀ negative : Bool, c ∈ (if negative then ['-'] else []) →
      isNumberChar c = true := by
    intro negative hc
    cases negative
    · cases hc
    · rw [List.mem_singleton.mp hc]
      decide
  have hword : ∀ word : List Char, word.all isNumberChar = true → c ∈ word →
      isNumberChar c = true := fun word hw hc => List.all_eq_true.mp hw c hc
  unfold write at h
  split at h
  · exact hword _ (by decide) h
  · rcases List.mem_append.mp h with h | h
    · exact hsign _ h
    · exact hword _ (by decide) h
  · rcases List.mem_append.mp h with h | h
    · exact hsign _ h
    · exact mem_magnitudeText hl h

end RealLayout

theorem mem_intText {i : Int} {c : Char} (h : c ∈ (intText i).toList) : isNumberChar c = true :=
  mem_ofInt (by simpa [intText] using h)

theorem Binary64.mem_displayText {x : Binary64} {c : Char} (h : c ∈ x.displayText.toList) :
    isNumberChar c = true :=
  RealLayout.mem_write RealLayout.plain_display (x := x) (by simpa [displayText] using h)

end Number

namespace Calendar

/-- Whether the text of a timestamp can hold the character. -/
def isTimestampChar (c : Char) : Bool :=
  c.isDigit || ['-', '+', ' ', ':'].contains c

theorem mem_padded {width n : Nat} {c : Char} (h : c ∈ padded width n) : c.isDigit = true := by
  rcases List.mem_append.mp h with h | h
  · rw [List.eq_of_mem_replicate h]
    decide
  · exact Number.mem_digits h

theorem mem_yearText {year : Int} {c : Char} (h : c ∈ yearText year) :
    isTimestampChar c = true := by
  have hpadded : ∀ n, c ∈ padded 4 n → isTimestampChar c = true := by
    intro n hc
    simp [isTimestampChar, mem_padded hc]
  unfold yearText at h
  split at h
  · exact hpadded _ h
  · rcases List.mem_cons.mp h with rfl | h
    · split <;> decide
    · exact hpadded _ h

theorem Timestamp.mem_write {t : Timestamp} {c : Char} (h : c ∈ t.write) :
    isTimestampChar c = true := by
  have hpadded : ∀ n, c ∈ padded 2 n → isTimestampChar c = true := by
    intro n hc
    simp [isTimestampChar, mem_padded hc]
  simp only [write, List.append_assoc, List.cons_append, List.mem_append, List.mem_cons] at h
  rcases h with h | rfl | h | rfl | h | rfl | h | rfl | h | rfl | h
  · exact mem_yearText h
  all_goals first | decide | exact hpadded _ h

end Calendar

namespace Text.Hex

theorem mem_ofByte {digits : List Char} (hd : '0' ∈ digits) {b : UInt8} {c : Char}
    (h : c ∈ ofByte digits b) : c ∈ digits := by
  have hget : ∀ i, digits.getD i '0' ∈ digits := by
    intro i
    rw [List.getD_eq_getElem?_getD]
    cases hi : digits[i]? with
    | none => exact hd
    | some d => exact List.mem_of_getElem? hi
  simp only [ofByte, List.mem_cons, List.not_mem_nil, or_false] at h
  rcases h with rfl | rfl
  · exact hget _
  · exact hget _

/-- Bytes are written with the sixteen digits. -/
theorem mem_ofBytes {digits : List Char} (hd : '0' ∈ digits) {bytes : List UInt8} {c : Char}
    (h : c ∈ ofBytes digits bytes) : c ∈ digits := by
  obtain ⟨b, _, hc⟩ := List.mem_flatMap.mp h
  exact mem_ofByte hd hc

end Text.Hex

end SqlMaps
