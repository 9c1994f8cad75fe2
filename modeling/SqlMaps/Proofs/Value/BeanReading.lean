import SqlMaps.Proofs.Number.WholeReals
import SqlMaps.Value.Field

/-! The field of a bean and the column it is filled from.

A column holds a value, which a type reads as it is. A bean is given the text of that value,
and the type reads the text. `parseField_eq_iff` says for every type and every value in a store
when both give the same: always, unless bytes are read, whose text is a literal that nobody
takes apart again, or a whole real number whose text shows another number (`Keeps`). -/
namespace SqlMaps

/-- A text without white space is trimmed as it stands. -/
theorem Text.trim_of_no_blank {s : List Char} (h : ∀ c ∈ s, Text.isBlank c = false) :
    Text.trim s = s :=
  Text.trim_of_ends (fun c hc => h c (List.mem_of_mem_head? hc))
    fun c hc => h c (List.mem_of_mem_getLast? hc)

namespace Number

/-! ### The texts of numbers -/

theorem isBlank_of_isNumberChar {c : Char} (h : isNumberChar c = true) :
    Text.isBlank c = false := by
  rcases Bool.or_eq_true _ _ ▸ h with h | h
  · have hlow : 48 ≤ c.toNat := UInt32.le_iff_toNat_le.1 (bounds_of_isDigit h).1
    have hhigh : c.toNat ≤ 57 := UInt32.le_iff_toNat_le.1 (bounds_of_isDigit h).2
    simp only [Text.isBlank, Bool.or_eq_false_iff, Bool.and_eq_false_imp, decide_eq_true_eq,
      decide_eq_false_iff_not, not_le, beq_eq_false_iff_ne, ne_eq]
    omega
  · have hmarks : (marks.all fun c => !Text.isBlank c) = true := by decide
    simpa using List.all_eq_true.1 hmarks c (by simpa using h)

/-- The text of a number holds no white space. -/
theorem trim_of_number {s : List Char} (h : ∀ c ∈ s, isNumberChar c = true) : Text.trim s = s :=
  Text.trim_of_no_blank fun c hc => isBlank_of_isNumberChar (h c hc)

theorem trim_intText (i : Int) : Text.trim (intText i).toList = ofInt i := by
  rw [trim_of_number fun _ => mem_intText, intText, String.toList_ofList]

theorem Binary64.trim_displayText (x : Binary64) :
    Text.trim x.displayText.toList = RealLayout.display.write x := by
  rw [trim_of_number fun _ => mem_displayText, displayText, String.toList_ofList]

/-- No number is written with a `t`, small or capital. -/
theorem toLower_ne_of_isNumberChar {c : Char} (h : isNumberChar c = true) : c.toLower ≠ 't' := by
  rcases Bool.or_eq_true _ _ ▸ h with h | h
  · rw [Text.toLower_of_not_capital fun hcapital =>
      absurd (UInt32.le_trans hcapital.1 (bounds_of_isDigit h).2) (by decide)]
    rintro rfl
    exact absurd h (by decide)
  · have hmarks : (marks.all fun c => c.toLower != 't') = true := by decide
    simpa using List.all_eq_true.1 hmarks c (by simpa using h)

/-- Of the texts of whole numbers, only that of the number one says yes. -/
theorem saysTrue_intText (n : Int64) : saysTrue (intText n.toInt) = (n == 1) := by
  have hquote : ofInt n.toInt ≠ ['\'', '1', '\''] := fun h =>
    absurd (mem_ofInt (i := n.toInt) (c := '\'') (by rw [h]; decide)) (by decide)
  have hword : Text.sameLetters (ofInt n.toInt) "true".toList = false := by
    rw [Text.sameLetters, beq_eq_false_iff_ne]
    intro h
    have ht : 't' ∈ Text.lowercase (ofInt n.toInt) := by
      rw [h]
      decide
    obtain ⟨c, hc, hlower⟩ := List.mem_map.1 ht
    exact toLower_ne_of_isNumberChar (mem_ofInt hc) hlower
  have hone : ofInt n.toInt = ['1'] ↔ n = 1 := by
    constructor
    · intro h
      have hread := read_int64 n
      rw [h] at hread
      have htoInt : (1 : Int) = n.toInt := Except.ok.inj hread
      exact Int64.toInt_inj.1 htoInt.symm
    · rintro rfl
      rfl
  rw [saysTrue, trim_intText, hword, beq_eq_false_iff_ne.2 hquote, Bool.or_false, Bool.or_false,
    Bool.eq_iff_iff, beq_iff_eq, beq_iff_eq, hone]

/-- A real number is read back from its text for reading. What is no number is read as the one
word that stands for it. -/
theorem Binary64.read_display (x : Binary64) :
    read (RealLayout.display.write x) = .ok (if x.isNan then nan else x) := by
  cases h : x.shape with
  | nan =>
    rw [RealLayout.write, h, isNan, h]
    rfl
  | infinite negative =>
    rw [RealLayout.write, h, isNan, h]
    have hword := ofWord_of_infinite h
    cases negative <;> exact congrArg Except.ok hword
  | finite negative m q =>
    rw [read_write RealLayout.endsIn_display h, isNan, h]
    rfl

end Number

/-! ### The texts of bytes -/

namespace Text

theorem length_toListLoop (bytes : ByteArray) (i : Nat) (front : List UInt8) :
    (ByteArray.toList.loop bytes i front).length = bytes.size - i + front.length := by
  fun_induction ByteArray.toList.loop bytes i front with
  | case1 i front h ih =>
    rw [ih, List.length_cons]
    omega
  | case2 i front h =>
    rw [List.length_reverse]
    omega

/-- A text has a byte or more for every character. -/
theorem length_le_toUTF8 (s : String) : s.toList.length ≤ s.toUTF8.toList.length := by
  have hbytes : s.toUTF8.toList.length = (s.toList.flatMap String.utf8EncodeChar).length := by
    rw [ByteArray.toList, length_toListLoop, String.toUTF8_eq_toByteArray,
      ← String.utf8Encode_toList, List.utf8Encode, List.size_toByteArray]
    rfl
  rw [hbytes]
  induction s.toList with
  | nil => exact Nat.le_refl _
  | cons c cs ih =>
    have hc := c.utf8Size_pos
    simp only [List.flatMap_cons, List.length_append, List.length_cons,
      String.length_utf8EncodeChar]
    omega

theorem Hex.length_ofBytes (digits : List Char) (bytes : List UInt8) :
    (ofBytes digits bytes).length = 2 * bytes.length := by
  have hbyte : ∀ b, (ofByte digits b).length = 2 := fun _ => rfl
  simp [ofBytes, List.length_flatMap, hbyte, Nat.mul_comm]

end Text

namespace Value

/-! ### Reading the text of a value -/

/-- What a column of a store can hold. -/
def Stored : Value → Prop
  | .flag _ | .timestamp _ => False
  | _ => True

/-- A number of the range is the number that its 64 bits hold. -/
theorem toInt_ofInt64 {n : Int} (hlow : Number.Range.int64.low ≤ n)
    (hhigh : n ≤ Number.Range.int64.high) : (Int64.ofInt n).toInt = n :=
  Int64.toInt_ofInt_of_le hlow (Int.lt_add_one_of_le hhigh)

theorem toInt_clampInt64 (n : Int) :
    (clampInt64 n).toInt = max Number.Range.int64.low (min Number.Range.int64.high n) := by
  refine toInt_ofInt64 ?_ ?_ <;> simp [Number.Range.int64]

theorem readInt64_text_iff {s : String} {i : Int64} : (text s).readInt64 = .ok i ↔
    ∃ n, Number.Range.int64.read 10 (Text.trim s.toList) = .ok n ∧ Int64.ofInt n = i := by
  unfold readInt64
  dsimp only
  split <;> simp [*]

theorem readInt64_real_iff {x : Number.Binary64} {i : Int64} :
    (real x).readInt64 = .ok i ↔ ∃ n, x.toInt? = some n ∧ clampInt64 n = i := by
  unfold readInt64
  dsimp only
  split <;> simp [*]

theorem readReal_text_iff {s : String} {x : Number.Binary64} :
    (text s).readReal = .ok x ↔ Number.Binary64.read (Text.trim s.toList) = .ok x := by
  unfold readReal
  dsimp only
  split <;> simp [*]

theorem readInt64_integerText (n : Int64) : (text (integer n).display).readInt64 = .ok n := by
  rw [readInt64_text_iff, display, Number.trim_intText]
  exact ⟨n.toInt, Number.read_int64 n, Int64.ofInt_toInt n⟩

/-- The text of a whole real number is read as the whole number that it shows. -/
theorem readInt64_realText_iff {x : Number.Binary64} {n : Int} (h : x.toInt? = some n)
    {i : Int64} : (text (real x).display).readInt64 = .ok i ↔ x.shown = i.toInt := by
  rw [readInt64_text_iff, display, x.trim_displayText]
  constructor
  · rintro ⟨k, hk, rfl⟩
    obtain ⟨rfl, hlow, hhigh⟩ := (Number.Binary64.read_shown_iff h).1 hk
    rw [toInt_ofInt64 hlow hhigh]
  · intro hi
    refine ⟨i.toInt, (Number.Binary64.read_shown_iff h).2 ⟨hi.symm, ?_, ?_⟩, Int64.ofInt_toInt i⟩
    · exact i.le_toInt
    · exact Int.le_of_lt_add_one i.toInt_lt

/-- A number of 32 bits is first read with 64. -/
theorem exists_wide {v : Value} {i : Int32} (h : v.readInt32 = .ok i) :
    ∃ k, v.readInt64 = .ok k ∧
      Number.Range.int32.low ≤ k.toInt ∧ k.toInt ≤ Number.Range.int32.high := by
  rw [readInt32] at h
  cases hwide : v.readInt64 with
  | error e =>
    rw [hwide] at h
    cases h
  | ok k =>
    rw [hwide] at h
    cases hcheck : Number.Range.int32.check k.toInt with
    | error e => simp [hcheck, Except.mapError, bind, Except.bind] at h
    | ok m => exact ⟨k, rfl, (Number.Range.check_eq_ok_iff.1 hcheck).2⟩

theorem readReal_integerText (n : Int64) :
    (text (integer n).display).readReal = .ok (Number.Binary64.ofInt n.toInt) := by
  rw [readReal_text_iff, display, Number.trim_intText, Number.Binary64.read_ofInt]

theorem readReal_realText (x : Number.Binary64) :
    (text (real x).display).readReal = .ok (if x.isNan then Number.Binary64.nan else x) := by
  rw [readReal_text_iff, display, x.trim_displayText, x.read_display]

/-- The text of a value says yes where the value does. -/
theorem readFlag_display {v : Value} (hnull : v ≠ .null) :
    (text v.display).readFlag = v.readFlag := by
  cases v with
  | null => exact absurd rfl hnull
  | integer n => exact congrArg Except.ok (Number.saysTrue_intText n)
  | flag b => cases b <;> rfl
  | _ => rfl

/-- The literal of bytes is longer than the bytes. -/
theorem readBytes_blobText (bytes : List UInt8) :
    (text (blob bytes).display).readBytes ≠ .ok bytes := by
  intro h
  have hbytes : (blobText bytes).toUTF8.toList = bytes := Except.ok.inj h
  have hlength : (blobText bytes).toList.length = 2 * bytes.length + 3 := by
    simp [blobText, Text.Hex.length_ofBytes]
  have hle := Text.length_le_toUTF8 (blobText bytes)
  rw [hbytes] at hle
  omega

end Value

/-! ### Reading the field of a bean -/

theorem exists_of_map_eq_ok {α β ε : Type} {f : α → β} {r : Except ε α} {b : β}
    (h : f <$> r = .ok b) : ∃ a, r = .ok a ∧ f a = b := by
  cases r with
  | error e => cases h
  | ok a => exact ⟨a, rfl, Except.ok.inj h⟩

theorem map_eq_ok_iff {α β ε : Type} {f : α → β} (hf : Function.Injective f) {r : Except ε α}
    {a : α} : f <$> r = .ok (f a) ↔ r = .ok a := by
  constructor
  · intro h
    obtain ⟨a', hr, ha⟩ := exists_of_map_eq_ok h
    rw [hr, hf ha]
  · rintro rfl
    rfl

namespace FieldType

/-- Whether the type reads in the text of a stored value what it reads in the value. -/
def Keeps : FieldType → Value → Prop
  | .optional type, v => type.Keeps v
  | .any, v => v = .null ∨ ∃ s, v = .text s
  | .bytes, .blob _ => False
  | .int64, .real x => ∀ n, x.toInt? = some n → x.shown = (Value.clampInt64 n).toInt
  | .real, .real x => x.isNan = true → x = .nan
  | _, _ => True

/-- The texts of whole numbers below two to the 53rd power show the numbers. -/
theorem keeps_int64_of_small {x : Number.Binary64} {n : Int} (h : x.toInt? = some n)
    (hsmall : n.natAbs < 2 ^ 53) : int64.Keeps (.real x) := by
  intro k hk
  obtain rfl : n = k := Option.some.inj (h.symm.trans hk)
  rw [Number.Binary64.shown_of_small h hsmall, Value.toInt_clampInt64]
  simp only [Number.Range.int64]
  omega

theorem readInt64_display_iff {v : Value} (hv : v.Stored) {i : Int64} (h : v.readInt64 = .ok i) :
    (Value.text v.display).readInt64 = .ok i ↔ int64.Keeps v := by
  cases v with
  | integer n =>
    refine iff_of_true ?_ trivial
    rw [Value.readInt64_integerText]
    exact h
  | text s => exact iff_of_true h trivial
  | real x =>
    obtain ⟨n, hn, rfl⟩ := Value.readInt64_real_iff.1 h
    rw [Value.readInt64_realText_iff hn]
    refine ⟨fun hshown k hk => ?_, fun hkeeps => hkeeps n hn⟩
    obtain rfl : n = k := Option.some.inj (hn.symm.trans hk)
    exact hshown
  | flag b => exact hv.elim
  | timestamp t => exact hv.elim
  | null => cases h
  | blob bytes => cases h

/-- Numbers of 32 bits are small enough for their texts. -/
theorem readInt32_display {v : Value} (hv : v.Stored) {i : Int32} (h : v.readInt32 = .ok i) :
    (Value.text v.display).readInt32 = .ok i := by
  obtain ⟨k, hwide, hlow, hhigh⟩ := Value.exists_wide h
  have hkeeps : int64.Keeps v := by
    cases v with
    | real x =>
      obtain ⟨n, hn, rfl⟩ := Value.readInt64_real_iff.1 hwide
      rw [Value.toInt_clampInt64] at hlow hhigh
      simp only [Number.Range.int32, Number.Range.int64] at hlow hhigh
      exact keeps_int64_of_small hn (by omega)
    | _ => trivial
  rw [Value.readInt32, hwide] at h
  rw [Value.readInt32, (readInt64_display_iff hv hwide).2 hkeeps]
  exact h

theorem readReal_display_iff {v : Value} (hv : v.Stored) {x : Number.Binary64}
    (h : v.readReal = .ok x) : (Value.text v.display).readReal = .ok x ↔ real.Keeps v := by
  cases v with
  | integer n =>
    refine iff_of_true ?_ trivial
    rw [Value.readReal_integerText]
    exact h
  | text s => exact iff_of_true h trivial
  | real y =>
    obtain rfl : y = x := Except.ok.inj h
    rw [Value.readReal_realText, Except.ok.injEq]
    show _ ↔ (y.isNan = true → y = .nan)
    cases y.isNan with
    | true => simp [eq_comm]
    | false => simp
  | flag b => exact hv.elim
  | timestamp t => exact hv.elim
  | null => cases h
  | blob bytes => cases h

theorem readBytes_display_iff {v : Value} {bytes : List UInt8} (h : v.readBytes = .ok bytes) :
    (Value.text v.display).readBytes = .ok bytes ↔ FieldType.bytes.Keeps v := by
  cases v with
  | text s => exact iff_of_true h trivial
  | blob bs =>
    obtain rfl : bs = bytes := Except.ok.inj h
    exact iff_of_false (Value.readBytes_blobText bs) id
  | _ => cases h

theorem readTimestamp_display {v : Value} (hv : v.Stored) {t : Calendar.Timestamp}
    (h : v.readTimestamp = .ok t) : (Value.text v.display).readTimestamp = .ok t := by
  cases v with
  | text s => exact h
  | timestamp t => exact hv.elim
  | _ => cases h

/-- A type reads the text of a stored value as the value where the value is kept. -/
theorem read_display_iff {type : FieldType} {v : Value} (hv : v.Stored) (hnull : v ≠ .null)
    {x : Value} (h : type.read v = .ok x) :
    type.read (.text v.display) = .ok x ↔ type.Keeps v := by
  have hoptional : ∀ {type : FieldType} {v : Value}, v ≠ .null →
      type.optional.read v = type.read v := by
    intro type v hv
    cases v with
    | null => exact absurd rfl hv
    | _ => rfl
  induction type with
  | optional type ih =>
    rw [hoptional hnull] at h
    exact ih h
  | text =>
    obtain ⟨s, hs, rfl⟩ := exists_of_map_eq_ok h
    refine iff_of_true ?_ trivial
    cases v with
    | null => cases hs
    | _ => exact h
  | int64 =>
    obtain ⟨n, hn, rfl⟩ := exists_of_map_eq_ok h
    exact (map_eq_ok_iff fun _ _ => Value.integer.inj).trans (readInt64_display_iff hv hn)
  | int32 =>
    obtain ⟨n, hn, rfl⟩ := exists_of_map_eq_ok h
    exact iff_of_true (congrArg _ (readInt32_display hv hn)) trivial
  | real =>
    obtain ⟨y, hy, rfl⟩ := exists_of_map_eq_ok h
    exact (map_eq_ok_iff fun _ _ => Value.real.inj).trans (readReal_display_iff hv hy)
  | flag =>
    refine iff_of_true ?_ trivial
    rw [read, Value.readFlag_display hnull]
    exact h
  | bytes =>
    obtain ⟨bs, hbs, rfl⟩ := exists_of_map_eq_ok h
    exact (map_eq_ok_iff fun _ _ => Value.blob.inj).trans (readBytes_display_iff hbs)
  | timestamp =>
    obtain ⟨t, ht, rfl⟩ := exists_of_map_eq_ok h
    exact iff_of_true (congrArg _ (readTimestamp_display hv ht)) trivial
  | any =>
    obtain rfl : v = x := Except.ok.inj h
    cases v with
    | text s => exact iff_of_true rfl (.inr ⟨s, rfl⟩)
    | null => exact absurd rfl hnull
    | _ => simp [read, Keeps]

theorem readColumn_eq_ok_iff {type : FieldType} {column : String} {v x : Value} :
    type.readColumn column v = .ok x ↔ type.read v = .ok x := by
  rw [readColumn]
  cases type.read v with
  | error e => simp [Except.mapError]
  | ok y => simp [Except.mapError]

/-- A bean is given what the column holds if and only if the type keeps the value in its text. -/
theorem parseField_eq_iff {type : FieldType} {column : String} {v x : Value} (hv : v.Stored)
    (h : type.readColumn column v = .ok x) :
    type.parseField column v.text? = .ok x ↔ type.Keeps v := by
  by_cases hnull : v = .null
  · subst hnull
    refine iff_of_true h ?_
    clear h
    induction type with
    | optional type ih => exact ih
    | any => exact .inl rfl
    | _ => trivial
  · have htext : v.text?.elim .null Value.text = .text v.display := by
      cases v with
      | null => exact absurd rfl hnull
      | _ => rfl
    rw [readColumn_eq_ok_iff] at h
    rw [parseField, htext, readColumn_eq_ok_iff, read_display_iff hv hnull h]

/-- The real number three is a whole number for a bean as well. -/
theorem parseField_eq_iff_three :
    int64.optional.readColumn "id" (.real ⟨0x4008000000000000⟩) = .ok (.integer 3) ∧
      int64.optional.parseField "id" (Value.real ⟨0x4008000000000000⟩).text? =
        .ok (.integer 3) := by
  have hstored : (Value.real ⟨0x4008000000000000⟩).Stored := trivial
  have hdirect :
      int64.optional.readColumn "id" (.real ⟨0x4008000000000000⟩) = .ok (.integer 3) := by
    decide +kernel
  have hwhole : Number.Binary64.toInt? ⟨0x4008000000000000⟩ = some 3 := by decide +kernel
  exact ⟨hdirect, (parseField_eq_iff hstored hdirect).2 (keeps_int64_of_small hwhole (by decide))⟩

/-- A bean is given the characters of a literal for bytes, and for the 60th power of two the
number that its sixteen digits and three zeros write. -/
theorem parseField_ne_readColumn :
    bytes.readColumn "data" (.blob [0xCA, 0xFE]) = .ok (.blob [0xCA, 0xFE]) ∧
      bytes.parseField "data" (Value.blob [0xCA, 0xFE]).text? =
        .ok (.blob "X'CAFE'".toUTF8.toList) ∧
      int64.readColumn "id" (.real ⟨0x43B0000000000000⟩) = .ok (.integer 1152921504606846976) ∧
      int64.parseField "id" (Value.real ⟨0x43B0000000000000⟩).text? =
        .ok (.integer 1152921504606847000) := by
  decide +kernel

end FieldType

end SqlMaps
