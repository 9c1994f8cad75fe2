import SqlMaps.Proofs.Number.RealReading

/-! Real numbers that are whole, and the whole numbers that their texts show.

The search for the shortest digits of a whole number ends at the grid of the whole numbers at
the latest (`exponent_shortest`). So its text for reading is a whole number too, `shown`, written
with zeros where the digits end (`write_display`), and it is read as that (`read_shown_iff`).
Below two to the 53rd power words are at most one apart, and the number shown is the number
itself (`shown_of_small`); further out it is only one that rounds to it. In the other direction
the text of a whole number is read as the real number nearest to it (`read_ofInt`). -/
namespace SqlMaps.Number

/-! ### Reading whole numbers with a sign -/

namespace Range

/-- What is read stays in the range, and is the value of the digits, taken with the sign. -/
theorem readDigits_spec {range : Range} {sign : Int} {ds : List Char} {n : Nat} {i : Int}
    (hds : ∀ c ∈ ds, c.isDigit = true) (hstart : range.low ≤ sign * n ∧ sign * n ≤ range.high)
    (h : range.readDigits 10 sign ds (sign * n) = .ok i) :
    i = sign * Nat.ofDigitChars 10 ds n ∧ range.low ≤ i ∧ i ≤ range.high := by
  induction ds generalizing n with
  | nil =>
    cases h
    exact ⟨rfl, hstart⟩
  | cons c ds ih =>
    have hnext : sign * (n : Int) * (10 : Nat) + sign * (c.toNat - '0'.toNat : Nat) =
        sign * (10 * n + (c.toNat - '0'.toNat) : Nat) := by
      rw [Int.natCast_add, Int.natCast_mul, Int.mul_add, Int.mul_comm (10 : Nat), Int.mul_assoc]
    rw [readDigits, digit?_of_isDigit (hds c (List.mem_cons_self ..))] at h
    dsimp only at h
    rw [hnext] at h
    cases hcheck : range.check (sign * (10 * n + (c.toNat - '0'.toNat) : Nat)) with
    | error e =>
      rw [hcheck] at h
      cases h
    | ok m =>
      obtain ⟨rfl, hrange⟩ := check_eq_ok_iff.1 hcheck
      rw [hcheck] at h
      rw [Nat.ofDigitChars_cons]
      exact ih (fun c hc => hds c (List.mem_cons_of_mem _ hc)) hrange h

theorem isDigit_of_readDigits {range : Range} {sign : Int} {ds : List Char} {n i : Int}
    (h : range.readDigits 10 sign ds n = .ok i) : ∀ c ∈ ds, c.isDigit = true := by
  induction ds generalizing n with
  | nil => simp
  | cons c ds ih =>
    rw [readDigits] at h
    cases hc : digit? 10 c with
    | none => simp [hc] at h
    | some d =>
      rw [hc] at h
      dsimp only at h
      cases hcheck : range.check (n * (10 : Nat) + sign * d) with
      | error e =>
        rw [hcheck] at h
        cases h
      | ok m =>
        rw [hcheck] at h
        intro c' hc'
        rcases List.mem_cons.1 hc' with rfl | hc'
        · exact isDigit_of_digit? hc
        · exact ih h c' hc'

/-- Characters are read as a number if they are digits and the number is in the range. -/
theorem readDigits_iff {range : Range} (hlow : range.low < 0) (hhigh : 0 ≤ range.high)
    {sign : Int} (hsign : sign = 1 ∨ sign = -1) {ds : List Char} {i : Int} :
    range.readDigits 10 sign ds 0 = .ok i ↔ (∀ c ∈ ds, c.isDigit = true) ∧
      i = sign * Nat.ofDigitChars 10 ds 0 ∧ range.low ≤ i ∧ i ≤ range.high := by
  constructor
  · intro h
    have hds := isDigit_of_readDigits h
    exact ⟨hds, readDigits_spec (n := 0) hds (by simp; omega) (by simpa using h)⟩
  · rintro ⟨hds, rfl, hlow', hhigh'⟩
    have := readDigits_eq range sign (n := 0) hds fun k hk => by
      rcases hsign with rfl | rfl <;> omega
    simpa using this

/-- Digits with or without a minus sign are read as the number they write, if it is in the
range. -/
theorem read_signed_iff {range : Range} (hlow : range.low < 0) (hhigh : 0 ≤ range.high)
    {ds : List Char} (hne : ds ≠ []) (hds : ∀ c ∈ ds, c.isDigit = true) (negative : Bool)
    {i : Int} :
    range.read 10 ((if negative then ['-'] else []) ++ ds) = .ok i ↔
      i = (if negative then -(Nat.ofDigitChars 10 ds 0 : Int) else Nat.ofDigitChars 10 ds 0) ∧
        range.low ≤ i ∧ i ≤ range.high := by
  obtain ⟨c, rest, rfl⟩ := List.exists_cons_of_ne_nil hne
  obtain ⟨hminus, hplus⟩ := ne_sign_of_isDigit (hds c (List.mem_cons_self ..))
  have hread : ∀ sign : Int, sign = 1 ∨ sign = -1 →
      (range.readDigits 10 sign (c :: rest) 0 = .ok i ↔
        i = sign * Nat.ofDigitChars 10 (c :: rest) 0 ∧ range.low ≤ i ∧ i ≤ range.high) :=
    fun sign hsign => (readDigits_iff hlow hhigh hsign).trans (and_iff_right hds)
  cases negative with
  | true => simpa [read, hlow] using hread (-1) (.inr rfl)
  | false => simpa [read, hminus, hplus] using hread 1 (.inl rfl)

end Range

open Binary64 (Canonical Rounds)

/-! ### Whole numbers -/

namespace Shortest

/-- The search for the digits of a whole number tries no fractions. -/
theorem exponent_shortest {m : Nat} {q : Int} (hc : Canonical m q) (hm : 0 < m) {k : Nat}
    (hk : (m : ℚ) * 2 ^ q = k) : 0 ≤ (shortest m q).exponent := by
  obtain ⟨n, c, hshortest, -, hnone⟩ := exists_shortest hc hm
  rw [hshortest]
  refine not_lt.1 fun hneg => ?_
  have hword : (4 * m : ℚ) * 2 ^ (q - 2) = k := by
    rw [← hk, zpow_sub₀ two_ne_zero]
    ring
  have hkpos : 1 ≤ k := by
    have : (0 : ℚ) < k := hk ▸ by positivity
    exact_mod_cast this
  -- the grid of the whole numbers is among those that were tried
  have hplaces : 0 < places m q := by
    have hless := (places_spec q hm).2
    rw [hword] at hless
    have : (10 : ℚ) ^ (0 : Int) < 10 ^ places m q :=
      lt_of_le_of_lt (by rw [zpow_zero]; exact_mod_cast hkpos) hless
    exact (zpow_lt_zpow_iff_right₀ (by norm_num)).1 this
  have hmissed := hnone (places m q - 1).toNat (by dsimp only at hneg; omega)
  have hgrid : places m q - (((places m q - 1).toNat : Nat) + 1) = 0 := by omega
  rw [grid, hgrid] at hmissed
  obtain ⟨c', hsome, -⟩ | ⟨-, hbelow, -⟩ := nearest?_cases m q 0
  · exact absurd (hsome.symm.trans hmissed) (Option.some_ne_none _)
  · -- and the number itself is inside
    obtain ⟨hle, hlt⟩ := gridBelow_spec m q 0
    rw [hword, zpow_zero, mul_one] at hle hlt
    have hsame : gridBelow m q 0 = k := by
      have h1 : gridBelow m q 0 ≤ k := by exact_mod_cast hle
      have h2 : k < gridBelow m q 0 + 1 := by exact_mod_cast hlt
      omega
    rw [hsame, ← Bool.not_eq_true, inside_iff, zpow_zero, mul_one, ← hword] at hbelow
    obtain ⟨hlow, hhigh, -⟩ := interval_width q hm hc.1
    have hunit : (0 : ℚ) < 2 ^ (q - 2) := by positivity
    have hlow' := mul_lt_mul_of_pos_right hlow hunit
    have hhigh' := mul_lt_mul_of_pos_right hhigh hunit
    exact hbelow ⟨hlow'.le, hhigh'.le, fun _ => ⟨hlow', hhigh'⟩⟩

/-- The whole number that the shortest digits write. -/
def whole (m : Nat) (q : Int) : Nat :=
  (shortest m q).coefficient * 10 ^ (shortest m q).exponent.toNat

theorem cast_whole {m : Nat} {q : Int} (h : 0 ≤ (shortest m q).exponent) :
    (whole m q : ℚ) = (shortest m q).coefficient * 10 ^ (shortest m q).exponent := by
  obtain ⟨e, he⟩ := Int.eq_ofNat_of_zero_le h
  simp [whole, he]

theorem Decimal.length_split_le (x : Decimal) : x.split.1.length + x.exponent ≤ x.split.2 := by
  have h : x.split.1.length ≤ (digits x.coefficient).length := by
    simpa [Decimal.split] using
      (List.dropWhile_sublist (· == '0') (l := (digits x.coefficient).reverse)).length_le
  have : x.split.2 = (digits x.coefficient).length + x.exponent := rfl
  omega

/-- Where words are at most one apart, a whole number only rounds to itself. -/
theorem eq_of_rounds_whole {m : Nat} {q : Int} (hm : 0 < m) (hq : q ≤ 0) {n : Nat} (h : Rounds m q n) :
    (m : ℚ) * 2 ^ q = n := by
  obtain ⟨hlow, hhigh, -⟩ := h.units hm
  have hunits : (n : ℚ) / 2 ^ q = (n * 2 ^ (-q).toNat : Nat) := by
    rw [zpow_eq_div, show q.toNat = 0 by omega]
    push_cast
    field_simp
  rw [hunits] at hlow hhigh
  have hbelow : (m : ℚ) < (n * 2 ^ (-q).toNat : Nat) + 1 := by linarith
  have habove : ((n * 2 ^ (-q).toNat : Nat) : ℚ) < m + 1 := by linarith
  have hsame : n * 2 ^ (-q).toNat = m := by
    have h1 : m < n * 2 ^ (-q).toNat + 1 := by exact_mod_cast hbelow
    have h2 : n * 2 ^ (-q).toNat < m + 1 := by exact_mod_cast habove
    omega
  rw [← hsame, ← hunits, div_mul_cancel₀ _ (by positivity)]

/-- Among small numbers the shortest digits of a whole number write the number itself. -/
theorem whole_of_small {m : Nat} {q : Int} (hc : Canonical m q) (hm : 0 < m) {k : Nat}
    (hk : (m : ℚ) * 2 ^ q = k) (hsmall : k < 2 ^ 53) : whole m q = k := by
  have hrounds : Rounds m q (whole m q) := by
    rw [cast_whole (exponent_shortest hc hm hk)]
    exact rounds_shortest hc hm
  have hq : q ≤ 0 := by
    rcases hc.2.2.2 with hleast | hfull
    · omega
    · refine not_lt.1 fun hpos => ?_
      have hsmall' : (k : ℚ) < 2 ^ 53 := by exact_mod_cast hsmall
      have hfull' : (2 : ℚ) ^ 52 ≤ m := by exact_mod_cast hfull
      have htwo : (2 : ℚ) ≤ 2 ^ q := by
        calc (2 : ℚ) = 2 ^ (1 : Int) := by norm_num
          _ ≤ 2 ^ q := zpow_le_zpow_right₀ one_le_two (by omega)
      have : (2 : ℚ) ^ 52 * 2 ≤ m * 2 ^ q := mul_le_mul hfull' htwo (by norm_num) (by positivity)
      rw [hk] at this
      linarith
  have hsame := (eq_of_rounds_whole hm hq hrounds).symm.trans hk
  exact_mod_cast hsame

end Shortest

/-- The text of a whole number's magnitude is its shortest digits and zeros behind them. -/
theorem RealLayout.magnitudeText_display {m : Nat} {q : Int} (hc : Canonical m q) (hm : 0 < m)
    {k : Nat} (hk : (m : ℚ) * 2 ^ q = k) :
    display.magnitudeText m q ≠ [] ∧ (∀ c ∈ display.magnitudeText m q, c.isDigit = true) ∧
      Nat.ofDigitChars 10 (display.magnitudeText m q) 0 = Shortest.whole m q := by
  have hexponent := Shortest.exponent_shortest hc hm hk
  have hcast := Shortest.cast_whole hexponent
  have hplaces := (Shortest.shortest m q).length_split_le
  obtain ⟨hne, hvalue⟩ := Shortest.Decimal.split_spec (coefficient_shortest_pos hc hm)
  have hds : ∀ c ∈ (Shortest.shortest m q).split.1, c.isDigit = true := fun c hc => mem_split hc
  have hwritten : display.magnitudeText m q =
      display.positionalText (Shortest.shortest m q).split.1 (Shortest.shortest m q).split.2 := by
    rw [magnitudeText, if_neg hm.ne']
    rfl
  rw [hwritten]
  rw [hvalue] at hcast
  generalize (Shortest.shortest m q).split.1 = ds at *
  generalize (Shortest.shortest m q).split.2 = places at *
  have hlength : 0 < ds.length := List.length_pos_of_ne_nil hne
  obtain ⟨zeros, hzeros⟩ := Int.eq_ofNat_of_zero_le (show 0 ≤ places - ds.length by omega)
  have htext : display.positionalText ds places = ds ++ List.replicate zeros '0' := by
    rw [positionalText, if_neg (by omega), if_pos (by omega),
      show places.toNat - ds.length = zeros by omega]
    exact List.append_nil _
  rw [htext]
  refine ⟨by simp [hne], fun c hc => ?_, ?_⟩
  · rcases List.mem_append.1 hc with hc | hc
    · exact hds c hc
    · rw [List.eq_of_mem_replicate hc]
      decide
  · rw [hzeros, zpow_natCast] at hcast
    rw [Nat.ofDigitChars_append, Nat.ofDigitChars_replicate_zero, Nat.mul_comm]
    exact_mod_cast hcast.symm

namespace Binary64

/-- The whole number that the text of a whole real number shows. -/
def shown (x : Binary64) : Int :=
  match x.shape with
  | .finite negative m q =>
    let n : Int := if m = 0 then 0 else Shortest.whole m q
    if negative then -n else n
  | _ => 0

/-- A word that denotes a whole number. -/
theorem toInt?_spec {x : Binary64} {n : Int} (h : x.toInt? = some n) :
    ∃ negative m q k, x.shape = .finite negative m q ∧ (m : ℚ) * 2 ^ q = (k : Nat) ∧
      n = if negative then -(k : Int) else k := by
  unfold toInt? at h
  split at h
  · next negative m q hshape =>
    dsimp only at h
    split at h
    · next hmod =>
      refine ⟨negative, m, q, m / pow2 (-q).toNat * pow2 q.toNat, hshape, ?_,
        (Option.some.inj h).symm⟩
      have hdiv : m / pow2 (-q).toNat * pow2 (-q).toNat = m :=
        Nat.div_mul_cancel (Nat.dvd_of_mod_eq_zero hmod)
      have hscale : (0 : ℚ) < 2 ^ (-q).toNat := by positivity
      have hdiv' : ((m / pow2 (-q).toNat : Nat) : ℚ) * 2 ^ (-q).toNat = m := by
        rw [← cast_pow2]
        exact_mod_cast hdiv
      rw [zpow_eq_div, Nat.cast_mul, cast_pow2, ← hdiv']
      field_simp
    · cases h
  · cases h

/-- The text of a whole number that is not too large shows that number. -/
theorem shown_of_small {x : Binary64} {n : Int} (h : x.toInt? = some n)
    (hsmall : n.natAbs < 2 ^ 53) : x.shown = n := by
  obtain ⟨negative, m, q, k, hshape, hk, rfl⟩ := toInt?_spec h
  have hsmall' : k < 2 ^ 53 := by
    cases negative <;> simpa using hsmall
  obtain ⟨hc, -⟩ := ofWord_of_finite hshape
  rw [shown, hshape]
  dsimp only
  rcases Nat.eq_zero_or_pos m with rfl | hm
  · have hk0 : k = 0 := by
      rw [Nat.cast_zero, zero_mul] at hk
      exact_mod_cast hk.symm
    simp [hk0]
  · rw [if_neg hm.ne', Shortest.whole_of_small hc hm hk hsmall']

/-- The text of a whole real number shows a whole number. -/
theorem write_display {x : Binary64} {n : Int} (h : x.toInt? = some n) :
    ∃ (negative : Bool) (ds : List Char),
      RealLayout.display.write x = (if negative then ['-'] else []) ++ ds ∧ ds ≠ [] ∧
      (∀ c ∈ ds, c.isDigit = true) ∧
      x.shown =
        if negative then -(Nat.ofDigitChars 10 ds 0 : Int) else Nat.ofDigitChars 10 ds 0 := by
  obtain ⟨negative, m, q, k, hshape, hk, -⟩ := toInt?_spec h
  obtain ⟨hc, -⟩ := ofWord_of_finite hshape
  have htext : RealLayout.display.write x =
      (if negative then ['-'] else []) ++ RealLayout.display.magnitudeText m q := by
    rw [RealLayout.write, hshape]
  refine ⟨negative, RealLayout.display.magnitudeText m q, htext, ?_⟩
  rw [shown, hshape]
  dsimp only
  rcases Nat.eq_zero_or_pos m with rfl | hm
  · have hzero : RealLayout.display.magnitudeText 0 q = ['0'] := rfl
    rw [hzero]
    exact ⟨by simp, by simp, by simp [Nat.ofDigitChars_cons]⟩
  · obtain ⟨hne, hds, hvalue⟩ := RealLayout.magnitudeText_display hc hm hk
    exact ⟨hne, hds, by rw [if_neg hm.ne', hvalue]⟩

/-- The text of a whole real number is read as the number that it shows, if that is in the
range. -/
theorem read_shown_iff {x : Binary64} {n i : Int} (h : x.toInt? = some n) :
    Range.int64.read 10 (RealLayout.display.write x) = .ok i ↔
      i = x.shown ∧ Range.int64.low ≤ i ∧ i ≤ Range.int64.high := by
  obtain ⟨negative, ds, htext, hne, hds, hshown⟩ := write_display h
  rw [htext, hshown]
  exact Range.read_signed_iff (by decide) (by decide) hne hds negative

/-- The digits of a number that is not too large are read as the real number nearest to it. -/
theorem read_digits {n : Nat} (hn : n < 10 ^ 20) (negative : Bool) :
    read ((if negative then ['-'] else []) ++ digits n) = .ok (ofFraction negative n 1) := by
  let p : Parts := ⟨digits n, none, none, Nat.toDigits_ne_nil, fun _ => mem_digits, by simp⟩
  have htext : p.text = digits n := by simp [p, Parts.text, Parts.fractionText, Parts.powerText]
  have hdigits : Nat.ofDigitChars 10 (digits n) 0 = n := Nat.ofDigitChars_ten_toDigits
  have hvalue : p.coefficient = n := by simp [p, Parts.coefficient, hdigits]
  have hexponent : p.exponent = 0 := by simp [p, Parts.exponent]
  rw [← htext, read_text, hvalue, hexponent]
  congr 1
  rcases Nat.eq_zero_or_pos n with rfl | hpos
  · rfl
  · have hfew : (digits n).length - 1 < 20 :=
      (Nat.pow_lt_pow_iff_right (by decide)).1 ((pow_length_digits_le hpos).trans_lt hn)
    rw [ofDecimal]
    simp only [if_neg (show ¬ (n = 0 ∨ (digits n).length + (0 : Int) < -330) by omega),
      if_neg (show ¬ ((digits n).length + (0 : Int) > 310) by omega), Int.neg_zero, Int.toNat_zero]
    simp [pow10]

/-- A whole number of 64 bits is read as the real number nearest to it. -/
theorem read_ofInt (n : Int64) : read (Number.ofInt n.toInt) = .ok (ofInt n.toInt) := by
  have hbounds : n.toInt.natAbs < 10 ^ 20 := by
    have := n.le_toInt
    have := n.toInt_lt
    omega
  generalize n.toInt = i at *
  cases i with
  | ofNat k =>
    have hsign : decide (Int.ofNat k < 0) = false :=
      decide_eq_false (Int.not_lt.2 (Int.natCast_nonneg k))
    rw [ofInt, hsign]
    exact read_digits hbounds false
  | negSucc k =>
    have hsign : decide (Int.negSucc k < 0) = true := decide_eq_true (by omega)
    rw [ofInt, hsign]
    exact read_digits hbounds true

end Binary64

end SqlMaps.Number
