import SqlMaps.Proofs.Value.BeanReading

/-! Values that are read as whole numbers.

A value denotes a whole number if it is one, or a flag, a real number without a fraction, or a
text of digits (`Denotes`). `readColumn_whole` says what the two types of whole numbers read: the
number that the value denotes, if it is in the range. Only a real number beyond the range of 64
bits is read all the same, as the end of the range that it lies behind; its 32 bits are checked
once more, so the narrow type refuses it. -/
namespace SqlMaps

namespace Number

/-! ### Texts of whole numbers -/

/-- Digits, one at least. -/
def IsNumeral (s : List Char) : Prop :=
  s ≠ [] ∧ ∀ c ∈ s, c.isDigit = true

/-- The whole number that a text writes: its digits in the decimal system, with or without a
sign in front of them. -/
inductive Spells : List Char → Int → Prop
  | plain {ds : List Char} : IsNumeral ds → Spells ds (Nat.ofDigitChars 10 ds 0)
  | plus {ds : List Char} : IsNumeral ds → Spells ('+' :: ds) (Nat.ofDigitChars 10 ds 0)
  | minus {ds : List Char} : IsNumeral ds → Spells ('-' :: ds) (-(Nat.ofDigitChars 10 ds 0 : Int))

namespace Range

/-- A text is read if it writes a number of the range, and as that number. -/
theorem read_iff {range : Range} (hlow : range.low < 0) (hhigh : 0 ≤ range.high) {s : List Char}
    {i : Int} : range.read 10 s = .ok i ↔ Spells s i ∧ range.low ≤ i ∧ i ≤ range.high := by
  have hdigits : ∀ {ds : List Char}, ds ≠ [] → ∀ {sign : Int}, sign = 1 ∨ sign = -1 →
      (range.readDigits 10 sign ds 0 = .ok i ↔ IsNumeral ds ∧
        i = sign * Nat.ofDigitChars 10 ds 0 ∧ range.low ≤ i ∧ i ≤ range.high) := by
    intro ds hne sign hsign
    rw [readDigits_iff hlow hhigh hsign, IsNumeral]
    tauto
  constructor
  · intro h
    unfold read at h
    split at h
    · cases h
    · cases h
    · cases h
    · next ds hne =>
      obtain ⟨hds, rfl, hrange⟩ := (hdigits (by simpa using hne) (.inl rfl)).1 h
      rw [one_mul] at hrange ⊢
      exact ⟨.plus hds, hrange⟩
    · next ds hne =>
      rw [if_pos hlow] at h
      obtain ⟨hds, rfl, hrange⟩ := (hdigits (by simpa using hne) (.inr rfl)).1 h
      rw [neg_one_mul] at hrange ⊢
      exact ⟨.minus hds, hrange⟩
    · next ds hne _ _ _ _ =>
      obtain ⟨hds, rfl, hrange⟩ := (hdigits (by simpa using hne) (.inl rfl)).1 h
      rw [one_mul] at hrange ⊢
      exact ⟨.plain hds, hrange⟩
  · rintro ⟨hspells, hrange⟩
    cases hspells with
    | @plain ds hds =>
      exact (read_signed_iff hlow hhigh hds.1 hds.2 false).2 ⟨rfl, hrange⟩
    | @minus ds hds =>
      exact (read_signed_iff hlow hhigh hds.1 hds.2 true).2 ⟨rfl, hrange⟩
    | @plus ds hds =>
      obtain ⟨c, rest, rfl⟩ := List.exists_cons_of_ne_nil hds.1
      exact (hdigits hds.1 (.inl rfl)).2 ⟨hds, (one_mul _).symm, hrange⟩

end Range

/-! ### Real numbers -/

namespace Binary64

/-- The exact value of a word that denotes a number. -/
def value? (x : Binary64) : Option ℚ :=
  match x.shape with
  | .finite negative m q => some (if negative then -(m * 2 ^ q) else m * 2 ^ q)
  | _ => none

/-- A significand that makes a whole number in its place has no digits behind it. -/
theorem significand_whole {m k : Nat} {q : Int} (h : (m : ℚ) * 2 ^ q = k) :
    m % pow2 (-q).toNat = 0 ∧ m / pow2 (-q).toNat * pow2 q.toNat = k := by
  have hscale := pow2_pos (-q).toNat
  have hnat : m * pow2 q.toNat = k * pow2 (-q).toNat := by
    have hscale' : (2 : ℚ) ^ (-q).toNat ≠ 0 := by positivity
    rw [zpow_eq_div, ← mul_div_assoc, div_eq_iff hscale', ← cast_pow2, ← cast_pow2] at h
    exact_mod_cast h
  rcases Int.le_total 0 q with hq | hq
  · rw [show (-q).toNat = 0 by omega] at hnat ⊢
    simpa [pow2, Nat.mod_one] using hnat
  · rw [show q.toNat = 0 by omega] at hnat ⊢
    have hm : m = k * pow2 (-q).toNat := by simpa [pow2] using hnat
    rw [hm, Nat.mul_div_cancel _ hscale]
    simp [pow2]

/-- A whole number with a sign in front is one without it. -/
theorem exists_magnitude {a : ℚ} (ha : 0 ≤ a) {negative : Bool} {n : Int}
    (h : (if negative then -a else a) = n) :
    ∃ k : Nat, a = k ∧ n = if negative then -(k : Int) else k := by
  cases negative with
  | true =>
    have hn : a = ((-n : Int) : ℚ) := by
      push_cast
      linarith [show -a = n from h]
    have hpos : 0 ≤ -n := by
      rw [hn] at ha
      exact_mod_cast ha
    obtain ⟨k, hk⟩ := Int.eq_ofNat_of_zero_le hpos
    refine ⟨k, by rw [hn, hk]; simp, ?_⟩
    simp only [if_true]
    omega
  | false =>
    have hn : a = n := h
    have hpos : 0 ≤ n := by
      rw [hn] at ha
      exact_mod_cast ha
    obtain ⟨k, rfl⟩ := Int.eq_ofNat_of_zero_le hpos
    exact ⟨k, by simpa using hn, rfl⟩

/-- A word denotes a whole number if its exact value is one. -/
theorem toInt?_eq_some_iff {x : Binary64} {n : Int} :
    x.toInt? = some n ↔ x.value? = some (n : ℚ) := by
  constructor
  · intro h
    obtain ⟨negative, m, q, k, hshape, hk, rfl⟩ := toInt?_spec h
    rw [value?, hshape]
    cases negative <;> simp [hk]
  · intro h
    unfold value? at h
    split at h
    · next negative m q hshape =>
      obtain ⟨k, hk, rfl⟩ := exists_magnitude (by positivity) (Option.some.inj h)
      obtain ⟨hmod, hdiv⟩ := significand_whole hk
      rw [toInt?, hshape]
      dsimp only
      rw [if_pos hmod, hdiv]
    · cases h

end Binary64

end Number

namespace Value

/-! ### What a value denotes -/

/-- The whole number that a value denotes. A text may have white space around it. -/
def Denotes : Value → Int → Prop
  | .integer i, n => i.toInt = n
  | .flag b, n => (if b then 1 else 0) = n
  | .real x, n => x.value? = some (n : ℚ)
  | .text s, n => Number.Spells (Text.trim s.toList) n
  | .null, _ | .blob _, _ | .timestamp _, _ => False

/-- Beyond the range of 64 bits, the end of the range on that side. -/
def Beyond (n : Int) (i : Int64) : Prop :=
  Number.Range.int64.high < n ∧ i = Int64.maxValue ∨ n < Number.Range.int64.low ∧ i = Int64.minValue

theorem clampInt64_eq_iff {n : Int} {i : Int64} : clampInt64 n = i ↔ i.toInt = n ∨ Beyond n i := by
  have hmax : Int64.maxValue.toInt = Number.Range.int64.high := by decide
  have hmin : Int64.minValue.toInt = Number.Range.int64.low := by decide
  have hlow := i.le_toInt
  have hhigh := i.toInt_lt
  rw [Beyond, ← Int64.toInt_inj, toInt_clampInt64, ← Int64.toInt_inj, ← Int64.toInt_inj, hmax, hmin]
  simp only [Number.Range.int64]
  omega

/-- A value is read as the number that it denotes. A real number beyond the range is read as an
end of it. -/
theorem readInt64_iff {v : Value} {i : Int64} :
    v.readInt64 = .ok i ↔ v.Denotes i.toInt ∨ ∃ x n, v = .real x ∧ v.Denotes n ∧ Beyond n i := by
  cases v with
  | integer n =>
    unfold readInt64
    simp only [Denotes, Int64.toInt_inj, Except.ok.injEq, reduceCtorEq, false_and, exists_false,
      or_false]
  | flag b =>
    have hflag : (ofFlag b).toInt = if b then 1 else 0 := by cases b <;> decide
    unfold readInt64
    simp only [Denotes, ← hflag, Int64.toInt_inj, Except.ok.injEq, reduceCtorEq, false_and,
      exists_false, or_false]
  | real x =>
    rw [readInt64_real_iff]
    simp only [Number.Binary64.toInt?_eq_some_iff, clampInt64_eq_iff, Denotes]
    constructor
    · rintro ⟨n, hn, rfl | hbeyond⟩
      · exact .inl hn
      · exact .inr ⟨x, n, rfl, hn, hbeyond⟩
    · rintro (hi | ⟨_, n, -, hn, hbeyond⟩)
      · exact ⟨i.toInt, hi, .inl rfl⟩
      · exact ⟨n, hn, .inr hbeyond⟩
  | text s =>
    rw [readInt64_text_iff]
    simp only [Number.Range.read_iff (show Number.Range.int64.low < 0 by decide)
      (show 0 ≤ Number.Range.int64.high by decide), Denotes, reduceCtorEq, false_and, exists_false,
      or_false]
    constructor
    · rintro ⟨n, ⟨hn, hlow, hhigh⟩, rfl⟩
      rwa [toInt_ofInt64 hlow hhigh]
    · intro h
      exact ⟨i.toInt, ⟨h, i.le_toInt, Int.le_of_lt_add_one i.toInt_lt⟩, Int64.ofInt_toInt i⟩
  | null =>
    unfold readInt64
    simp only [Denotes, reduceCtorEq, false_and, exists_false, or_self]
  | blob bytes =>
    unfold readInt64
    simp only [Denotes, reduceCtorEq, false_and, exists_false, or_self]
  | timestamp t =>
    unfold readInt64
    simp only [Denotes, reduceCtorEq, false_and, exists_false, or_self]

/-- The narrow type reads what the wide one reads, if it is in its range. -/
theorem readInt32_iff {v : Value} {j : Int32} :
    v.readInt32 = .ok j ↔ ∃ i, v.readInt64 = .ok i ∧ Number.Range.int32.low ≤ i.toInt ∧
      i.toInt ≤ Number.Range.int32.high ∧ Int32.ofInt i.toInt = j := by
  rw [readInt32]
  cases v.readInt64 with
  | error e => simp [bind, Except.bind]
  | ok i =>
    simp only [Except.ok.injEq, exists_eq_left', bind, Except.bind]
    cases hcheck : Number.Range.int32.check i.toInt with
    | error e =>
      have hout : ¬ (Number.Range.int32.low ≤ i.toInt ∧ i.toInt ≤ Number.Range.int32.high) := by
        intro hrange
        rw [Number.Range.check_eq_ok_iff.2 ⟨rfl, hrange⟩] at hcheck
        cases hcheck
      simp only [Except.mapError, reduceCtorEq, false_iff]
      tauto
    | ok n =>
      obtain ⟨rfl, hlow, hhigh⟩ := Number.Range.check_eq_ok_iff.1 hcheck
      simp [Except.mapError, pure, Except.pure, hlow, hhigh]

/-- A number of 32 bits is the same one with 64. -/
theorem toInt64_ofInt32 {i : Int64} (hlow : Number.Range.int32.low ≤ i.toInt)
    (hhigh : i.toInt ≤ Number.Range.int32.high) : (Int32.ofInt i.toInt).toInt64 = i := by
  rw [← Int64.toInt_inj, Int32.toInt_toInt64]
  exact Int32.toInt_ofInt_of_le hlow (Int.lt_add_one_of_le hhigh)

/-- Beyond the range of 64 bits, the end of the range is not one of 32 bits. -/
theorem Beyond.not_narrow {n : Int} {i : Int64} (h : Beyond n i) :
    ¬ (Number.Range.int32.low ≤ i.toInt ∧ i.toInt ≤ Number.Range.int32.high) := by
  rcases h with ⟨-, rfl⟩ | ⟨-, rfl⟩ <;> decide

end Value

namespace FieldType

/-- What the two types of whole numbers read: the number that the value denotes, if it is in the
range; and a real number beyond the range of 64 bits as the end of that range. -/
theorem readColumn_whole (column : String) (v w : Value) :
    (int64.readColumn column v = .ok w ↔ ∃ i, w = .integer i ∧
      (v.Denotes i.toInt ∨ ∃ x n, v = .real x ∧ v.Denotes n ∧ Value.Beyond n i)) ∧
    (int32.readColumn column v = .ok w ↔ ∃ i, w = .integer i ∧ v.Denotes i.toInt ∧
      Number.Range.int32.low ≤ i.toInt ∧ i.toInt ≤ Number.Range.int32.high) := by
  rw [readColumn_eq_ok_iff, readColumn_eq_ok_iff]
  constructor
  · constructor
    · intro h
      obtain ⟨i, hi, rfl⟩ := exists_of_map_eq_ok h
      exact ⟨i, rfl, Value.readInt64_iff.1 hi⟩
    · rintro ⟨i, rfl, hi⟩
      exact congrArg (Value.integer <$> ·) (Value.readInt64_iff.2 hi)
  · constructor
    · intro h
      obtain ⟨j, hj, rfl⟩ := exists_of_map_eq_ok h
      obtain ⟨i, hi, hlow, hhigh, rfl⟩ := Value.readInt32_iff.1 hj
      refine ⟨i, congrArg _ (Value.toInt64_ofInt32 hlow hhigh), ?_, hlow, hhigh⟩
      rcases Value.readInt64_iff.1 hi with hdenotes | ⟨_, _, -, -, hbeyond⟩
      · exact hdenotes
      · exact absurd ⟨hlow, hhigh⟩ hbeyond.not_narrow
    · rintro ⟨i, rfl, hi, hlow, hhigh⟩
      have hread : v.readInt32 = .ok (Int32.ofInt i.toInt) :=
        Value.readInt32_iff.2 ⟨i, Value.readInt64_iff.2 (.inl hi), hlow, hhigh, rfl⟩
      rw [read, hread]
      exact congrArg (fun i => Except.ok (Value.integer i)) (Value.toInt64_ofInt32 hlow hhigh)

/-- Two to the 63rd power is one more than the number it is read as, and the narrow type refuses
it. -/
theorem readColumn_beyond :
    (Value.real ⟨0x43E0000000000000⟩).Denotes (2 ^ 63) ∧
      int64.readColumn "n" (.real ⟨0x43E0000000000000⟩) = .ok (.integer 9223372036854775807) ∧
      int32.readColumn "n" (.real ⟨0x43E0000000000000⟩) =
        .error (.invalid "n" (.integer .tooLarge)) := by
  refine ⟨Number.Binary64.toInt?_eq_some_iff.1 ?_, ?_⟩ <;> decide +kernel

end FieldType

end SqlMaps
