import SqlMaps.Cli.Param
import SqlMaps.Proofs.Number.IntegerReading
import Mathlib.Tactic.Ring

/-! Bytes are read from pairs of hexadecimal digits.

A pair is two bytes of the text, wherever its characters end, and it is read as a number to the
base sixteen. Every digit takes one byte (`utf8Size_of_digit?`), so what is read are two
characters, and their letter case does not matter. But the reader of numbers takes a sign too:
`+f` is read as `0f`. `hexBytes_eq_some_iff` says which texts are read, and as what: those that
write the bytes once a zero stands for each of these signs. -/
namespace SqlMaps

namespace Text.Hex

/-! ### Digits -/

/-- A digit takes one byte. -/
theorem utf8Size_of_digit? {c : Char} {n : Nat} (h : digit? c = some n) : c.utf8Size = 1 :=
  Char.utf8Size_eq_one_iff.2
    (UInt32.le_iff_toNat_le.2 (Nat.le_trans (toNat_le_of_digit? h) (by decide)))

/-- Two characters write a byte, in either letter case, if they are the digits of its halves. -/
theorem lowercase_pair_iff {c d : Char} {b : UInt8} : lowercase [c, d] = ofByte smallDigits b ↔
    digit? c = some (b.toNat / 16) ∧ digit? d = some (b.toNat % 16) := by
  have hless := b.toNat_lt
  have hhigh : b.toNat / 16 < 16 := by omega
  have hlow : b.toNat % 16 < 16 := by omega
  simp [lowercase, ofByte, digit?_eq_some_iff, hhigh, hlow]

end Text.Hex

namespace Number.Range

/-! ### Numbers of a byte -/

theorem readDigits_byte_cons {n : Nat} (hn : n < 16) (c : Char) (rest : List Char) :
    byte.readDigits 16 1 (c :: rest) n =
      match Text.Hex.digit? c with
      | none => .error .badDigit
      | some digit => byte.readDigits 16 1 rest (n * 16 + digit : Nat) := by
  rw [readDigits, digit?]
  cases hdigit : Text.Hex.digit? c with
  | none => rfl
  | some digit =>
    have hless := Text.Hex.digit?_lt hdigit
    have hnext : (n : Int) * (16 : Nat) + 1 * digit = (n * 16 + digit : Nat) := by
      push_cast
      ring
    have hcheck : byte.check (n * 16 + digit : Nat) = .ok (n * 16 + digit : Nat) := by
      refine check_eq_ok_iff.2 ⟨rfl, ?_⟩
      simp only [byte]
      omega
    rw [Option.filter_some, if_pos (by simpa using hless)]
    dsimp only
    rw [hnext, hcheck]
    rfl

/-- Where no plus sign stands in front, the first character has to be a digit. -/
theorem read_byte_cons {c : Char} (hplus : c ≠ '+') (rest : List Char) :
    byte.read 16 (c :: rest) =
      match Text.Hex.digit? c with
      | none => .error .badDigit
      | some digit => byte.readDigits 16 1 rest digit := by
  have hdigits : byte.read 16 (c :: rest) = byte.readDigits 16 1 (c :: rest) (0 : Nat) := by
    by_cases hminus : c = '-'
    · subst hminus
      cases rest <;> rfl
    · simp [read, hplus, hminus]
  rw [hdigits, readDigits_byte_cons (by decide)]
  simp only [Nat.zero_mul, Nat.zero_add]

end Number.Range

namespace Cli
open Number.Range (readDigits_byte_cons read_byte_cons)

/-! ### A pair -/

/-- Two characters without a sign are read if both are digits. -/
theorem byteOf?_digits_iff {c d : Char} (hplus : c ≠ '+') {b : UInt8} :
    byteOf? [c, d] = some b ↔ Text.lowercase [c, d] = Text.Hex.ofByte Text.Hex.smallDigits b := by
  rw [Text.Hex.lowercase_pair_iff, byteOf?, read_byte_cons hplus]
  cases hc : Text.Hex.digit? c with
  | none => simp [Except.toOption]
  | some high =>
    have hhigh := Text.Hex.digit?_lt hc
    dsimp only
    rw [readDigits_byte_cons hhigh]
    cases hd : Text.Hex.digit? d with
    | none => simp [Except.toOption]
    | some low =>
      have hlow := Text.Hex.digit?_lt hd
      have hless := b.toNat_lt
      simp only [Number.Range.readDigits, Except.toOption, Option.map_some, Int.toNat_natCast,
        Option.some.injEq]
      rw [← UInt8.toNat_inj, UInt8.toNat_ofNat']
      omega

/-- The digit that the first character of a pair counts as: a plus sign adds nothing. -/
def leadingDigit (c : Char) : Char :=
  if c = '+' then '0' else c

/-- Two bytes are two characters or one. -/
theorem pair_of_byteLength {pair : List Char} (h : Text.byteLength pair = 2) :
    (∃ c d, pair = [c, d]) ∨ ∃ c, pair = [c] ∧ c.utf8Size = 2 := by
  match pair with
  | [] => cases h
  | [c] => exact .inr ⟨c, rfl, h⟩
  | [c, d] => exact .inl ⟨c, d, rfl⟩
  | c :: d :: e :: rest =>
    have hc := c.utf8Size_pos
    have hd := d.utf8Size_pos
    have he := e.utf8Size_pos
    simp only [Text.byteLength] at h
    omega

/-- Two bytes are read if they are two characters, and both are digits once a plus sign in front
is taken for a zero. -/
theorem byteOf?_eq_some_iff {pair : List Char} (h : Text.byteLength pair = 2) {b : UInt8} :
    byteOf? pair = some b ↔ ∃ c d, pair = [c, d] ∧
      Text.lowercase [leadingDigit c, d] = Text.Hex.ofByte Text.Hex.smallDigits b := by
  rcases pair_of_byteLength h with ⟨c, d, rfl⟩ | ⟨c, rfl, hsize⟩
  · have hlead : byteOf? [c, d] = byteOf? [leadingDigit c, d] := by
      by_cases hplus : c = '+'
      · subst hplus
        rfl
      · rw [leadingDigit, if_neg hplus]
    have hdigit : leadingDigit c ≠ '+' := by
      rw [leadingDigit]
      split
      · decide
      · assumption
    rw [hlead, byteOf?_digits_iff hdigit]
    constructor
    · exact fun hlower => ⟨c, d, rfl, hlower⟩
    · rintro ⟨_, _, ⟨⟩, hlower⟩
      exact hlower
  · -- a character of two bytes is no digit
    have hplus : c ≠ '+' := by
      rintro rfl
      exact absurd hsize (by decide)
    have hdigit : Text.Hex.digit? c = none := by
      cases hc : Text.Hex.digit? c with
      | none => rfl
      | some n => exact absurd (Text.Hex.utf8Size_of_digit? hc) (by omega)
    rw [byteOf?, read_byte_cons hplus, hdigit]
    simp [Except.toOption]

theorem byteLength_of_lowercase {c d : Char} {b : UInt8}
    (h : Text.lowercase [leadingDigit c, d] = Text.Hex.ofByte Text.Hex.smallDigits b) :
    Text.byteLength [c, d] = 2 := by
  obtain ⟨hc, hd⟩ := Text.Hex.lowercase_pair_iff.1 h
  have hsize : c.utf8Size = 1 := by
    by_cases hplus : c = '+'
    · rw [hplus]
      rfl
    · rw [leadingDigit, if_neg hplus] at hc
      exact Text.Hex.utf8Size_of_digit? hc
  rw [Text.byteLength, hsize, Text.byteLength, Text.Hex.utf8Size_of_digit? hd]
  rfl

/-! ### All pairs -/

/-- A text in which a zero stands for each plus sign in front of a pair. -/
def signsAsZeros : List Char → List Char
  | high :: low :: rest => leadingDigit high :: low :: signsAsZeros rest
  | s => s

/-- Two bytes in front are read as the first pair. -/
theorem pairsOfBytes_append {pair : List Char} (h : Text.byteLength pair = 2) (rest : List Char) :
    pairsOfBytes (pair ++ rest) =
      (byteOf? pair).bind fun b => (pairsOfBytes rest).map (b :: ·) := by
  have hlength : Text.byteLength (pair ++ rest) = 2 + Text.byteLength rest := by
    rw [Text.byteLength_append, h]
  rw [pairsOfBytes, pairsOfBytes, hlength, Nat.add_mod_left]
  by_cases heven : Text.byteLength rest % 2 = 0
  · have hfirst : Text.slice? 0 2 (pair ++ rest) = some pair :=
      Text.slice?_zero_eq_some_iff.2 ⟨rest, rfl, h⟩
    have hlater : ∀ offset, Text.slice? (2 + offset) 2 (pair ++ rest) =
        Text.slice? offset 2 rest := by
      intro offset
      rw [← h, Text.slice?_append, h]
    rw [if_pos heven, if_pos heven, Nat.add_div_left _ (by decide), List.range'_succ,
      List.mapM_cons, hfirst, Nat.add_comm 0 2, ← List.map_add_range', List.mapM_map]
    simp only [Function.comp_def, hlater, Option.bind_some, Option.map_eq_bind]
    rfl
  · rw [if_neg heven, if_neg heven]
    cases byteOf? pair <;> rfl

/-- A text that is read is empty, or begins with two bytes. -/
theorem exists_pair {s : List Char} {bytes : List UInt8} (h : pairsOfBytes s = some bytes) :
    s = [] ∨ ∃ pair rest, s = pair ++ rest ∧ Text.byteLength pair = 2 := by
  rw [pairsOfBytes] at h
  split at h
  · next heven =>
    cases hcount : Text.byteLength s / 2 with
    | zero =>
      cases s with
      | nil => exact .inl rfl
      | cons c s =>
        have hsize := c.utf8Size_pos
        rw [Text.byteLength] at heven hcount
        omega
    | succ n =>
      rw [hcount, List.range'_succ, List.mapM_cons] at h
      cases hfirst : Text.slice? 0 2 s with
      | none =>
        rw [hfirst] at h
        cases h
      | some pair => exact .inr ⟨pair, Text.slice?_zero_eq_some_iff.1 hfirst⟩
  · cases h

section
variable {s : List Char} {bytes : List UInt8}

/-- What is read writes the bytes. -/
theorem lowercase_of_pairsOfBytes (h : pairsOfBytes s = some bytes) :
    Text.lowercase (signsAsZeros s) = Text.Hex.ofBytes Text.Hex.smallDigits bytes := by
  induction bytes generalizing s with
  | nil =>
    rcases exists_pair h with rfl | ⟨pair, rest, rfl, hpair⟩
    · rfl
    · rw [pairsOfBytes_append hpair] at h
      obtain ⟨b, -, hmap⟩ := Option.bind_eq_some_iff.1 h
      obtain ⟨_, -, hcons⟩ := Option.map_eq_some_iff.1 hmap
      cases hcons
  | cons b bytes ih =>
    rcases exists_pair h with rfl | ⟨pair, rest, rfl, hpair⟩
    · cases h
    · rw [pairsOfBytes_append hpair] at h
      obtain ⟨_, hbyte, hmap⟩ := Option.bind_eq_some_iff.1 h
      obtain ⟨_, hrest, ⟨⟩⟩ := Option.map_eq_some_iff.1 hmap
      obtain ⟨c, d, rfl, hlower⟩ := (byteOf?_eq_some_iff hpair).1 hbyte
      exact congrArg₂ (· ++ ·) hlower (ih hrest)

/-- What writes bytes is read. -/
theorem pairsOfBytes_of_signsAsZeros
    (h : Text.lowercase (signsAsZeros s) = Text.Hex.ofBytes Text.Hex.smallDigits bytes) :
    pairsOfBytes s = some bytes := by
  induction bytes generalizing s with
  | nil =>
    match s with
    | [] => rfl
    | [_] | _ :: _ :: _ => cases h
  | cons b bytes ih =>
    match s with
    | [] => cases h
    | [c] =>
      have hlength := congrArg List.length h
      simp [Text.lowercase, signsAsZeros, Text.Hex.ofBytes, Text.Hex.ofByte] at hlength
    | c :: d :: rest =>
      have hsplit : Text.lowercase [leadingDigit c, d] ++ Text.lowercase (signsAsZeros rest) =
          Text.Hex.ofByte Text.Hex.smallDigits b ++
            Text.Hex.ofBytes Text.Hex.smallDigits bytes := h
      obtain ⟨hlower, hrest⟩ := List.append_inj hsplit rfl
      have hpair := byteLength_of_lowercase hlower
      have hbyte := (byteOf?_eq_some_iff hpair).2 ⟨c, d, rfl, hlower⟩
      show pairsOfBytes ([c, d] ++ rest) = _
      rw [pairsOfBytes_append hpair, hbyte, ih hrest]
      rfl

theorem pairsOfBytes_eq_some_iff : pairsOfBytes s = some bytes ↔
    Text.lowercase (signsAsZeros s) = Text.Hex.ofBytes Text.Hex.smallDigits bytes :=
  ⟨lowercase_of_pairsOfBytes, pairsOfBytes_of_signsAsZeros⟩

end

theorem signsAsZeros_of_not_mem {s : List Char} (h : '+' ∉ s) : signsAsZeros s = s := by
  fun_induction signsAsZeros s with
  | case1 high low rest ih =>
    have hhigh : high ≠ '+' := fun heq => h (heq ▸ List.mem_cons_self ..)
    have hrest : '+' ∉ rest := fun hmem =>
      h (List.mem_cons_of_mem _ (List.mem_cons_of_mem _ hmem))
    rw [leadingDigit, if_neg hhigh, ih hrest]
  | case2 s => rfl

theorem plus_not_mem_of_lowercase {s : List Char} {bytes : List UInt8}
    (h : Text.lowercase s = Text.Hex.ofBytes Text.Hex.smallDigits bytes) : '+' ∉ s := by
  intro hmem
  have hdigit : '+' ∈ Text.Hex.ofBytes Text.Hex.smallDigits bytes := h ▸ List.mem_map_of_mem hmem
  exact absurd (Text.Hex.mem_ofBytes (by decide) hdigit) (by decide)

/-- Pairs of digits are read as their bytes, in either letter case. -/
theorem pairsOfBytes_of_lowercase {s : List Char} {bytes : List UInt8}
    (h : Text.lowercase s = Text.Hex.ofBytes Text.Hex.smallDigits bytes) :
    pairsOfBytes s = some bytes := by
  refine pairsOfBytes_of_signsAsZeros ?_
  rw [signsAsZeros_of_not_mem (plus_not_mem_of_lowercase h), h]

/-! ### White space around the pairs -/

/-- A text without a plus sign is read if it writes bytes in digits of either letter case, with
white space around them, and as those bytes. -/
theorem hexBytes_eq_some_iff_of_not_mem {s : List Char} (h : '+' ∉ Text.trim s)
    {bytes : List UInt8} : hexBytes s = some bytes ↔
      Text.lowercase (Text.trim s) = Text.Hex.ofBytes Text.Hex.smallDigits bytes := by
  rw [hexBytes, pairsOfBytes_eq_some_iff, signsAsZeros_of_not_mem h]

/-- A text is read if it writes bytes in digits of either letter case, with white space around
them, and as those bytes. A plus sign in front of a pair may stand for a zero. -/
theorem hexBytes_eq_some_iff {s : List Char} {bytes : List UInt8} :
    hexBytes s = some bytes ↔ Text.lowercase (signsAsZeros (Text.trim s)) =
      Text.Hex.ofBytes Text.Hex.smallDigits bytes := by
  rw [hexBytes, pairsOfBytes_eq_some_iff]

/-- A text with a sign is read although it writes no bytes. -/
theorem hexBytes_sign : hexBytes "+f".toList = some [0x0F] ∧
    ∀ bytes, Text.lowercase (Text.trim "+f".toList) ≠
      Text.Hex.ofBytes Text.Hex.smallDigits bytes := by
  constructor
  · decide +kernel
  · intro bytes hlower
    exact plus_not_mem_of_lowercase hlower (by decide +kernel)

/-- Characters of two bytes are no digits, and neither is a sign behind the first of a pair. -/
example : hexBytes "éé".toList = none ∧ hexBytes "f+".toList = none := by
  decide +kernel

end Cli

end SqlMaps
