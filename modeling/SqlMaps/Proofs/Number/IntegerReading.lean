import SqlMaps.Proofs.Value.Characters
import SqlMaps.Text.Case

/-! A whole number of a range is read back from its text.

The reader checks the range at every digit. The numbers it passes on its way are nearer to
zero than the one it ends with, so if that one is in the range none of them leaves it
(`readDigits_eq`). -/
namespace SqlMaps

/-! ### Hexadecimal digits -/

namespace Text.Hex

/-- A digit has the same value in either letter case. -/
theorem digit?_toLower (c : Char) : digit? c.toLower = digit? c := by
  by_cases hcapital : 'A' ≤ c ∧ c ≤ 'Z'
  · have hletters : ∀ k : Fin 26,
        digit? (Char.ofNat (65 + k)).toLower = digit? (Char.ofNat (65 + k)) := by
      decide
    have hlow : 65 ≤ c.toNat := UInt32.le_iff_toNat_le.1 hcapital.1
    have hhigh : c.toNat ≤ 90 := UInt32.le_iff_toNat_le.1 hcapital.2
    have := hletters ⟨c.toNat - 65, by omega⟩
    rwa [show 65 + (c.toNat - 65) = c.toNat by omega, Char.ofNat_toNat] at this
  · rw [toLower_of_not_capital hcapital]

/-- No digit stands behind the small `f`. -/
theorem toNat_le_of_digit? {c : Char} {n : Nat} (h : digit? c = some n) : c.toNat ≤ 'f'.toNat := by
  have hle : ∀ {high : Char}, high ≤ 'f' → c ≤ high → c.toNat ≤ 'f'.toNat := fun hhigh hc =>
    UInt32.le_iff_toNat_le.1 (UInt32.le_trans hc hhigh)
  rw [digit?] at h
  split at h
  · next hnine => exact hle (by decide) hnine.2
  · split at h
    · next hsmall => exact hle (by decide) hsmall.2
    · split at h
      · next hcapital => exact hle (by decide) hcapital.2
      · cases h

/-- The digits of a value are the small one and its capital letter. -/
theorem digit?_eq_some_iff {c : Char} {n : Nat} :
    digit? c = some n ↔ n < 16 ∧ c.toLower = smallDigits.getD n '0' := by
  constructor
  · intro h
    have hall : ∀ k : Fin 103, ∀ n ∈ digit? (Char.ofNat k),
        n < 16 ∧ (Char.ofNat k).toLower = smallDigits.getD n '0' := by
      decide
    have hc := hall ⟨c.toNat, Nat.lt_succ_of_le (toNat_le_of_digit? h)⟩ n
    rw [Char.ofNat_toNat] at hc
    exact hc h
  · rintro ⟨hless, hlower⟩
    have hvalue : ∀ n < 16, digit? (smallDigits.getD n '0') = some n := by decide
    rw [← digit?_toLower, hlower, hvalue n hless]

theorem digit?_lt {c : Char} {n : Nat} (h : digit? c = some n) : n < 16 :=
  (digit?_eq_some_iff.1 h).1

end Text.Hex

namespace Number

/-! ### Whole numbers -/

theorem digit?_of_isDigit {c : Char} (h : c.isDigit = true) :
    Range.digit? 10 c = some (c.toNat - '0'.toNat) := by
  have hbounds := bounds_of_isDigit h
  have hless : c.toNat - '0'.toNat < 10 := by
    have hle : c.toNat ≤ '9'.toNat := UInt32.le_iff_toNat_le.1 hbounds.2
    have h9 : '9'.toNat = 57 := rfl
    have h0 : '0'.toNat = 48 := rfl
    omega
  rw [Range.digit?, Text.Hex.digit?, if_pos hbounds, Option.filter_some, if_pos (by simpa using hless)]

theorem isDigit_of_digit? {c : Char} {d : Nat} (h : Range.digit? 10 c = some d) :
    c.isDigit = true := by
  obtain ⟨hvalue, hless⟩ := Option.filter_eq_some_iff.1 h
  rw [Text.Hex.digit?] at hvalue
  split at hvalue
  · next hbounds =>
    simp only [Char.isDigit, Bool.and_eq_true, decide_eq_true_eq]
    exact hbounds
  · -- the letters count ten and more
    split at hvalue
    · simp only [Option.some.injEq, decide_eq_true_eq] at hvalue hless
      omega
    · split at hvalue
      · simp only [Option.some.injEq, decide_eq_true_eq] at hvalue hless
        omega
      · cases hvalue

/-- Digits only move a number away from zero. -/
theorem le_ofDigitChars (ds : List Char) (n : Nat) : n ≤ Nat.ofDigitChars 10 ds n := by
  rw [Nat.ofDigitChars_eq_ofDigitChars_zero]
  have : 1 * n ≤ 10 ^ ds.length * n := Nat.mul_le_mul_right n (Nat.pow_pos (by decide))
  omega

theorem ne_sign_of_isDigit {c : Char} (h : c.isDigit = true) : c ≠ '-' ∧ c ≠ '+' :=
  ⟨fun hc => by simp [hc] at h, fun hc => by simp [hc] at h⟩

theorem digits_eq_cons (n : Nat) : ∃ c rest, digits n = c :: rest ∧ c.isDigit = true := by
  obtain ⟨c, rest, hcons⟩ := List.exists_cons_of_ne_nil (Nat.toDigits_ne_nil (b := 10) (n := n))
  exact ⟨c, rest, hcons, mem_digits (n := n) (by rw [digits, hcons]; simp)⟩

namespace Range

theorem check_eq_ok_iff {range : Range} {n m : Int} :
    range.check n = .ok m ↔ m = n ∧ range.low ≤ n ∧ n ≤ range.high := by
  rw [check]
  split
  · simp only [reduceCtorEq, false_iff]
    omega
  · split
    · simp only [reduceCtorEq, false_iff]
      omega
    · simp only [Except.ok.injEq]
      omega

/-- Digits are read from a number on if all numbers up to their value, taken with the sign,
are in the range. -/
theorem readDigits_eq (range : Range) (sign : Int) {ds : List Char} {n : Nat}
    (hds : ∀ c ∈ ds, c.isDigit = true)
    (hrange : ∀ k : Nat, k ≤ Nat.ofDigitChars 10 ds n → range.low ≤ sign * k ∧ sign * k ≤ range.high) :
    range.readDigits 10 sign ds (sign * n) = .ok (sign * Nat.ofDigitChars 10 ds n) := by
  induction ds generalizing n with
  | nil => rfl
  | cons c ds ih =>
    rw [Nat.ofDigitChars_cons] at hrange ⊢
    have hnext : sign * (n : Int) * (10 : Nat) + sign * (c.toNat - '0'.toNat : Nat) =
        sign * (10 * n + (c.toNat - '0'.toNat) : Nat) := by
      rw [Int.natCast_add, Int.natCast_mul, Int.mul_add, Int.mul_comm (10 : Nat), Int.mul_assoc]
    obtain ⟨hlow, hhigh⟩ := hrange _ (le_ofDigitChars ds (10 * n + (c.toNat - '0'.toNat)))
    rw [readDigits, digit?_of_isDigit (hds c (List.mem_cons_self ..))]
    dsimp only
    rw [hnext, check_eq_ok_iff.2 ⟨rfl, hlow, hhigh⟩]
    exact ih (fun c hc => hds c (List.mem_cons_of_mem _ hc)) hrange

/-- A whole number of a range around zero is read back from its text. -/
theorem read_ofInt {range : Range} {i : Int} (hlow : range.low ≤ i) (hhigh : i ≤ range.high)
    (hlow' : range.low < 0) (hhigh' : 0 ≤ range.high) : range.read 10 (ofInt i) = .ok i := by
  have hvalue : ∀ n, Nat.ofDigitChars 10 (digits n) 0 = n := fun n => Nat.ofDigitChars_ten_toDigits
  cases i with
  | ofNat n =>
    have hread := @readDigits_eq range 1 (digits n) 0 (fun c => mem_digits)
      fun k hk => by
        rw [hvalue] at hk
        rw [Int.ofNat_eq_natCast] at hhigh
        omega
    rw [hvalue] at hread
    -- the number begins with a digit, so it has no sign
    obtain ⟨c, rest, hcons, hc⟩ := digits_eq_cons n
    rw [ofInt]
    rw [hcons] at hread ⊢
    simpa [read, ne_sign_of_isDigit hc] using hread
  | negSucc n =>
    have hread := @readDigits_eq range (-1) (digits (n + 1)) 0
      (fun c => mem_digits) fun k hk => by
        rw [hvalue] at hk
        rw [Int.negSucc_eq] at hlow
        omega
    rw [hvalue] at hread
    obtain ⟨c, rest, hcons, -⟩ := digits_eq_cons (n + 1)
    rw [ofInt]
    rw [hcons] at hread ⊢
    have hneg : Int.negSucc n = -1 * ((n + 1 : Nat) : Int) := by omega
    rw [hneg]
    simpa [read, hlow'] using hread

end Range

/-- Numbers of 64 bits are read back. -/
theorem read_int64 (n : Int64) : Range.int64.read 10 (ofInt n.toInt) = .ok n.toInt :=
  Range.read_ofInt n.le_toInt (Int.le_of_lt_add_one n.toInt_lt) (by decide) (by decide)

end Number

end SqlMaps
