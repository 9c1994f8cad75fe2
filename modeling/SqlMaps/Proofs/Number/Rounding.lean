import Mathlib.Algebra.Order.Field.Power
import Mathlib.Data.Rat.Cast.Order
import Mathlib.Tactic.FieldSimp
import Mathlib.Tactic.Linarith
import Mathlib.Tactic.NormNum
import Mathlib.Tactic.Positivity
import Mathlib.Tactic.Ring
import SqlMaps.Number.Shortest

/-! Which fractions round to a word.

The numbers of the interval around a word are those that round to it, the ends among them
if the word is even (`roundFraction_of_rounds`). All of it is stated in rational numbers,
where a place of a number is a power with an exponent of either sign. -/
namespace SqlMaps.Number

theorem cast_pow2 (n : Nat) : ((pow2 n : Nat) : ℚ) = 2 ^ n := by
  simp [pow2]

theorem cast_pow10 (n : Nat) : ((pow10 n : Nat) : ℚ) = 10 ^ n := by
  simp [pow10]

/-- A power whose exponent has either sign, as a fraction of powers without signs. -/
theorem zpow_eq_div (b : ℚ) (e : Int) : b ^ e = b ^ e.toNat / b ^ (-e).toNat := by
  rcases Int.le_total 0 e with h | h
  · obtain ⟨n, rfl⟩ := Int.eq_ofNat_of_zero_le h
    simp
  · obtain ⟨n, hn⟩ := Int.eq_ofNat_of_zero_le (Int.neg_nonneg_of_nonpos h)
    obtain rfl : e = -(n : Int) := by omega
    simp

/-- Fractions are compared with powers by whole numbers. -/
theorem div_lt_zpow_iff {n d b : Nat} (hd : 0 < d) (hb : 0 < b) (e : Int) :
    (n : ℚ) / d < b ^ e ↔ n * b ^ (-e).toNat < d * b ^ e.toNat := by
  have hd' : (0 : ℚ) < d := by exact_mod_cast hd
  have hb' : (0 : ℚ) < b ^ (-e).toNat := by
    have : (0 : ℚ) < b := by exact_mod_cast hb
    positivity
  rw [zpow_eq_div, div_lt_div_iff₀ hd' hb', mul_comm ((b : ℚ) ^ e.toNat)]
  exact_mod_cast Iff.rfl

/-- The places of the leading digits of two numbers give that of their fraction, up to one. -/
theorem div_between_zpow {b n d i j : Nat} (hb : 0 < b) (hd : 0 < d) (hn : b ^ i ≤ n)
    (hn' : n < b ^ (i + 1)) (hdj : b ^ j ≤ d) (hdj' : d < b ^ (j + 1)) :
    (b : ℚ) ^ ((i : Int) - j - 1) < n / d ∧ (n : ℚ) / d < b ^ ((i : Int) - j + 1) := by
  have hb' : (b : ℚ) ≠ 0 := by exact_mod_cast hb.ne'
  have hpos : ∀ k : Nat, (0 : ℚ) < b ^ k := fun k => by
    have : (0 : ℚ) < b := by exact_mod_cast hb
    positivity
  have hd' : (0 : ℚ) < d := by exact_mod_cast hd
  constructor
  · rw [show (i : Int) - j - 1 = i - (j + 1 : Nat) by omega, zpow_sub₀ hb', zpow_natCast,
      zpow_natCast, div_lt_div_iff₀ (hpos _) hd']
    calc (b : ℚ) ^ i * d < b ^ i * b ^ (j + 1) := by
          exact mul_lt_mul_of_pos_left (by exact_mod_cast hdj') (hpos i)
      _ ≤ n * b ^ (j + 1) := mul_le_mul_of_nonneg_right (by exact_mod_cast hn) (hpos _).le
  · rw [show (i : Int) - j + 1 = (i + 1 : Nat) - j by omega, zpow_sub₀ hb', zpow_natCast,
      zpow_natCast, div_lt_div_iff₀ hd' (hpos _)]
    calc (n : ℚ) * b ^ j < b ^ (i + 1) * b ^ j := by
          exact mul_lt_mul_of_pos_right (by exact_mod_cast hn') (hpos j)
      _ ≤ b ^ (i + 1) * d := mul_le_mul_of_nonneg_left (by exact_mod_cast hdj) (hpos _).le

namespace Binary64

/-- The quotient of a number no more than a half away is the number or the one below it. -/
theorem quotient_of_near {d k r m : Nat} (hr : r < d) (hlow : 2 * m * d ≤ 2 * (d * k + r) + d)
    (hhigh : 2 * (d * k + r) ≤ 2 * m * d + d) : k = m ∨ k + 1 = m := by
  have hle : k ≤ m := by
    by_contra h
    have : (m + 1) * d ≤ k * d := Nat.mul_le_mul_right d (by omega)
    nlinarith
  have hge : m ≤ k + 1 := by
    by_contra h
    have : (k + 2) * d ≤ m * d := Nat.mul_le_mul_right d (by omega)
    nlinarith
  omega

/-- A number no more than a half away rounds to it; one that is a half away only if it is
even. -/
theorem roundHalfEven_eq {n d m : Nat} (hd : 0 < d) (hlow : (m : ℚ) - 1 / 2 ≤ n / d)
    (hhigh : (n : ℚ) / d ≤ m + 1 / 2)
    (hodd : m % 2 = 1 → (m : ℚ) - 1 / 2 < n / d ∧ (n : ℚ) / d < m + 1 / 2) :
    roundHalfEven n d = m := by
  have hd' : (0 : ℚ) < d := by exact_mod_cast hd
  have hlow' : 2 * m * d ≤ 2 * n + d := by
    rw [le_div_iff₀ hd'] at hlow
    have : (2 * m * d : ℚ) ≤ 2 * n + d := by linarith
    exact_mod_cast this
  have hhigh' : 2 * n ≤ 2 * m * d + d := by
    rw [div_le_iff₀ hd'] at hhigh
    have : (2 * n : ℚ) ≤ 2 * m * d + d := by linarith
    exact_mod_cast this
  have hodd' : m % 2 = 1 → 2 * m * d < 2 * n + d ∧ 2 * n < 2 * m * d + d := by
    intro h
    obtain ⟨h1, h2⟩ := hodd h
    rw [lt_div_iff₀ hd'] at h1
    rw [div_lt_iff₀ hd'] at h2
    have h1' : (2 * m * d : ℚ) < 2 * n + d := by linarith
    have h2' : (2 * n : ℚ) < 2 * m * d + d := by linarith
    exact ⟨by exact_mod_cast h1', by exact_mod_cast h2'⟩
  have hdiv := Nat.div_add_mod n d
  have hmod := Nat.mod_lt n hd
  rw [roundHalfEven]
  generalize n / d = k at *
  generalize n % d = r at *
  subst hdiv
  rcases quotient_of_near hmod hlow' hhigh' with rfl | rfl
  · have hr : 2 * r ≤ d := by nlinarith
    rw [if_neg]
    rintro (h | ⟨h, heven⟩)
    · omega
    · have := (hodd' heven).2
      nlinarith
  · have hr : d ≤ 2 * r := by nlinarith
    rw [if_pos]
    rcases Nat.lt_or_ge d (2 * r) with h | h
    · exact .inl h
    · refine .inr ⟨by omega, ?_⟩
      by_contra heven
      have := (hodd' (by omega)).1
      nlinarith

/-- The binary exponent of a fraction is the place of its leading bit. -/
theorem binaryExponent_spec {n d : Nat} (hn : 0 < n) (hd : 0 < d) :
    (2 : ℚ) ^ binaryExponent n d ≤ n / d ∧ (n : ℚ) / d < 2 ^ (binaryExponent n d + 1) := by
  obtain ⟨hbelow, habove⟩ := div_between_zpow (b := 2) two_pos hd (Nat.log2_self_le hn.ne')
    Nat.lt_log2_self (Nat.log2_self_le hd.ne') Nat.lt_log2_self
  have htest := div_lt_zpow_iff (n := n) hd (b := 2) (by decide) (n.log2 - d.log2)
  have hexponent : binaryExponent n d =
      let e : Int := (n.log2 : Int) - d.log2
      if n * pow2 (-e).toNat < d * pow2 e.toNat then e - 1 else e := rfl
  rw [hexponent]
  dsimp only
  split
  · rename_i h
    exact ⟨hbelow.le, by simpa using htest.2 h⟩
  · rename_i h
    exact ⟨by simpa using mt htest.1 h, habove⟩

theorem binaryExponent_eq {n d : Nat} (hn : 0 < n) (hd : 0 < d) {e : Int}
    (hlow : (2 : ℚ) ^ e ≤ n / d) (hhigh : (n : ℚ) / d < 2 ^ (e + 1)) : binaryExponent n d = e := by
  obtain ⟨h1, h2⟩ := binaryExponent_spec hn hd
  have hle : binaryExponent n d < e + 1 := (zpow_lt_zpow_iff_right₀ one_lt_two).1 (h1.trans_lt hhigh)
  have hge : e < binaryExponent n d + 1 := (zpow_lt_zpow_iff_right₀ one_lt_two).1 (hlow.trans_lt h2)
  omega

/-- A place further up, in units of the place `q`. -/
theorem two_zpow_add (q : Int) (k : Nat) : (2 : ℚ) ^ (q + k) = 2 ^ k * 2 ^ q := by
  rw [zpow_add₀ two_ne_zero, zpow_natCast, mul_comm]

/-- The leading bit of a fraction, found in units of the place `q`. -/
theorem binaryExponent_eq_add {n d : Nat} (hn : 0 < n) (hd : 0 < d) {q : Int} {k : Nat}
    (hlow : (2 : ℚ) ^ k ≤ n / d / 2 ^ q) (hhigh : (n : ℚ) / d / 2 ^ q < 2 ^ (k + 1)) :
    binaryExponent n d = q + k := by
  have hpos : (0 : ℚ) < 2 ^ q := by positivity
  refine binaryExponent_eq hn hd ?_ ?_
  · rwa [two_zpow_add, ← le_div_iff₀ hpos]
  · rwa [show q + (k : Int) + 1 = q + (k + 1 : Nat) by omega, two_zpow_add, ← div_lt_iff₀ hpos]

/-- A fraction of fewer units has its leading bit further down. -/
theorem binaryExponent_lt_add {n d : Nat} (hn : 0 < n) (hd : 0 < d) {q : Int} {k : Nat}
    (h : (n : ℚ) / d / 2 ^ q < 2 ^ k) : binaryExponent n d < q + k := by
  have hpos : (0 : ℚ) < 2 ^ q := by positivity
  have habove : (n : ℚ) / d < 2 ^ (q + (k : Int)) := by
    rwa [two_zpow_add, ← div_lt_iff₀ hpos]
  exact (zpow_lt_zpow_iff_right₀ one_lt_two).1 ((binaryExponent_spec hn hd).1.trans_lt habove)

/-- The significands and exponents that words denote. -/
def Canonical (m : Nat) (q : Int) : Prop :=
  m < 2 ^ 53 ∧ -1074 ≤ q ∧ q ≤ 971 ∧ (q = -1074 ∨ 2 ^ 52 ≤ m)

/-- The numbers that round to `m * 2 ^ q`: those of the interval, its ends if it is closed. -/
def Rounds (m : Nat) (q : Int) (v : ℚ) : Prop :=
  let i := Shortest.interval m q
  i.low * 2 ^ (q - 2) ≤ v ∧ v ≤ i.high * 2 ^ (q - 2) ∧
    (i.closed = false → i.low * 2 ^ (q - 2) < v ∧ v < i.high * 2 ^ (q - 2))

theorem cast_interval_high (m : Nat) (q : Int) :
    ((Shortest.interval m q).high : ℚ) = 4 * m + 2 := by
  simp [Shortest.interval]

/-- Below a power of two the interval is narrower, unless the exponent is the least one. -/
theorem cast_interval_low {m : Nat} (q : Int) (hm : 0 < m) :
    (m = 2 ^ 52 ∧ -1074 < q) ∧ ((Shortest.interval m q).low : ℚ) = 4 * m - 1 ∨
      ¬ (m = 2 ^ 52 ∧ -1074 < q) ∧ ((Shortest.interval m q).low : ℚ) = 4 * m - 2 := by
  by_cases hpower : m = pow2 52 ∧ q > -1074
  · refine .inl ⟨hpower, ?_⟩
    simp only [Shortest.interval, if_pos hpower]
    rw [Nat.cast_sub (by omega)]
    push_cast
    ring
  · refine .inr ⟨hpower, ?_⟩
    simp only [Shortest.interval, if_neg hpower]
    rw [Nat.cast_sub (by omega)]
    push_cast
    ring

/-- The interval in units of the last place. -/
theorem Rounds.units {m : Nat} {q : Int} {v : ℚ} (h : Rounds m q v) (hm : 0 < m) :
    (m : ℚ) - 1 / 2 ≤ v / 2 ^ q ∧ v / 2 ^ q ≤ m + 1 / 2 ∧
      (m % 2 = 1 → (m : ℚ) - 1 / 2 < v / 2 ^ q ∧ v / 2 ^ q < m + 1 / 2) ∧
      (m = 2 ^ 52 → -1074 < q → (m : ℚ) - 1 / 4 ≤ v / 2 ^ q) := by
  have hpos : (0 : ℚ) < 2 ^ q := by positivity
  have hquarter : (2 : ℚ) ^ (q - 2) = 2 ^ q / 4 := by
    rw [zpow_sub₀ two_ne_zero]
    norm_num
  obtain ⟨hlow, hhigh, hopen⟩ := h
  rw [hquarter] at hlow hhigh hopen
  have hvalue : v = v / 2 ^ q * 2 ^ q := by field_simp
  generalize v / 2 ^ q = u at *
  subst hvalue
  have hle : ∀ a : ℚ, a * (2 ^ q / 4) = a / 4 * 2 ^ q := fun a => by ring
  rw [hle, mul_le_mul_iff_left₀ hpos] at hlow hhigh
  rw [hle, hle, mul_lt_mul_iff_left₀ hpos, mul_lt_mul_iff_left₀ hpos] at hopen
  have hclosed : m % 2 = 1 → (Shortest.interval m q).closed = false := by
    intro h
    simp [Shortest.interval, h]
  rw [cast_interval_high] at hhigh hopen
  obtain ⟨-, hcast⟩ | ⟨hpower, hcast⟩ := cast_interval_low q hm
  · rw [hcast] at hlow hopen
    refine ⟨by linarith, by linarith, fun h => ?_, fun _ _ => by linarith⟩
    obtain ⟨h1, h2⟩ := hopen (hclosed h)
    exact ⟨by linarith, by linarith⟩
  · rw [hcast] at hlow hopen
    refine ⟨by linarith, by linarith, fun h => ?_, fun hm hq => absurd ⟨hm, hq⟩ hpower⟩
    obtain ⟨h1, h2⟩ := hopen (hclosed h)
    exact ⟨by linarith, by linarith⟩

/-- What rounds to a positive number is positive. -/
theorem Rounds.pos {m : Nat} {q : Int} {v : ℚ} (h : Rounds m q v) (hm : 0 < m) : 0 < v := by
  have hmQ : (1 : ℚ) ≤ m := by exact_mod_cast hm
  have hhalf : 0 < v / 2 ^ q := by linarith [(h.units hm).1]
  have hpos : (0 : ℚ) < 2 ^ q := by positivity
  exact (div_pos_iff_of_pos_right hpos).1 hhalf

/-- The fraction is measured in units of the last place. -/
theorem div_scaled (n d : Nat) (q : Int) :
    ((n * pow2 (-q).toNat : Nat) : ℚ) / (d * pow2 q.toNat : Nat) = n / d / 2 ^ q := by
  rw [zpow_eq_div, Nat.cast_mul, Nat.cast_mul, cast_pow2, cast_pow2, div_div_eq_mul_div,
    div_mul_eq_mul_div, div_div]

/-- A fraction whose significand is rounded in the place `q`. -/
theorem roundFraction_of_place {n d m : Nat} {q : Int} (hn : 0 < n) (hd : 0 < d)
    (hplace : max (binaryExponent n d - 52) (-1074) = q)
    (hlow : (m : ℚ) - 1 / 2 ≤ n / d / 2 ^ q) (hhigh : (n : ℚ) / d / 2 ^ q ≤ m + 1 / 2)
    (hodd : m % 2 = 1 → (m : ℚ) - 1 / 2 < n / d / 2 ^ q ∧ (n : ℚ) / d / 2 ^ q < m + 1 / 2) :
    roundFraction n d = min ((q + 1074).toNat * pow2 52 + m) infiniteWord := by
  have hround : roundHalfEven (n * pow2 (-q).toNat) (d * pow2 q.toNat) = m := by
    refine roundHalfEven_eq (Nat.mul_pos hd (pow2_pos _)) ?_ ?_ fun h => ?_
    · rwa [div_scaled]
    · rwa [div_scaled]
    · rw [div_scaled]
      exact hodd h
  simp only [roundFraction, if_neg (show n ≠ 0 by omega), hplace, hround]

/-- The words of finite numbers stand below the infinite one. -/
theorem Canonical.word_le {m : Nat} {q : Int} (hc : Canonical m q) :
    (q + 1074).toNat * pow2 52 + m ≤ infiniteWord := by
  obtain ⟨hm, -, hq, -⟩ := hc
  have hplaces : (q + 1074).toNat ≤ 2045 := by omega
  have hfirst := Nat.mul_le_mul_right (pow2 52) hplaces
  have htop : infiniteWord = 2045 * pow2 52 + 2 ^ 53 := by decide
  omega

/-- A fraction with a full significand, or in the least place, is rounded in the place of the
number it rounds to. -/
theorem roundFraction_of_full {m : Nat} {q : Int} (hc : Canonical m q) (hm : 0 < m) {n d : Nat}
    (hn : 0 < n) (hd : 0 < d) (h : Rounds m q (n / d))
    (hfull : q = -1074 ∨ (2 : ℚ) ^ 52 ≤ n / d / 2 ^ q) :
    roundFraction n d = (q + 1074).toNat * pow2 52 + m := by
  obtain ⟨hlow, hhigh, hodd, -⟩ := h.units hm
  have hless : (n : ℚ) / d / 2 ^ q < 2 ^ 53 := by
    have : (m : ℚ) + 1 ≤ 2 ^ 53 := by exact_mod_cast hc.1
    linarith
  have hplace : max (binaryExponent n d - 52) (-1074) = q := by
    have hq : -1074 ≤ q := hc.2.1
    rcases hfull with hleast | hfull
    · have hlead := binaryExponent_lt_add hn hd hless
      omega
    · have hlead := binaryExponent_eq_add hn hd hfull hless
      omega
  rw [roundFraction_of_place hn hd hplace hlow hhigh hodd, Nat.min_eq_left hc.word_le]

/-- A fraction below the power of two it rounds to is rounded in the place under that of the
power, where the significand comes out as the next power. -/
theorem roundFraction_of_below {m : Nat} {q : Int} (hc : Canonical m q) (hm : 0 < m) {n d : Nat}
    (hn : 0 < n) (hd : 0 < d) (h : Rounds m q (n / d)) (hq : q ≠ -1074)
    (hless : (n : ℚ) / d / 2 ^ q < 2 ^ 52) :
    roundFraction n d = (q + 1074).toNat * pow2 52 + m := by
  obtain ⟨hlow, -, -, hpower⟩ := h.units hm
  have hleast : -1074 ≤ q := hc.2.1
  have hnormal : 2 ^ 52 ≤ m := hc.2.2.2.resolve_left hq
  have hm52 : m = 2 ^ 52 := by
    have hlt : (m : ℚ) < 2 ^ 52 + 1 := by linarith
    have : m < 2 ^ 52 + 1 := by exact_mod_cast hlt
    omega
  have hquarter : (2 : ℚ) ^ 52 - 1 / 4 ≤ n / d / 2 ^ q := by
    have := hpower hm52 (by omega)
    rw [hm52] at this
    exact_mod_cast this
  have hplace : max (binaryExponent n d - 52) (-1074) = q - 1 := by
    have hlead := binaryExponent_eq_add (k := 51) hn hd (by linarith) hless
    omega
  -- in half the units the fraction is just below the even `2 ^ 53`
  have hhalf : (n : ℚ) / d / 2 ^ (q - 1) = 2 * (n / d / 2 ^ q) := by
    rw [zpow_sub_one₀ two_ne_zero]
    field_simp
  have hround := roundFraction_of_place (m := 2 ^ 53) hn hd hplace
    (by rw [hhalf]; push_cast; linarith) (by rw [hhalf]; push_cast; linarith)
    fun h => absurd h (by decide)
  have hcarry : (q - 1 + 1074).toNat * pow2 52 + 2 ^ 53 = (q + 1074).toNat * pow2 52 + m := by
    have hplaces : (q + 1074).toNat = (q - 1 + 1074).toNat + 1 := by omega
    rw [hplaces, hm52, Nat.add_mul]
    simp only [pow2, Nat.pow_eq]
    omega
  rw [hround, hcarry, Nat.min_eq_left hc.word_le]

/-- A fraction that rounds to `m * 2 ^ q` is rounded to the word that denotes it. -/
theorem roundFraction_of_rounds {m : Nat} {q : Int} (hc : Canonical m q) (hm : 0 < m) {n d : Nat}
    (hd : 0 < d) (h : Rounds m q (n / d)) :
    roundFraction n d = (q + 1074).toNat * pow2 52 + m := by
  have hn : 0 < n := by
    have hd' : (0 : ℚ) < d := by exact_mod_cast hd
    exact_mod_cast (div_pos_iff_of_pos_right hd').1 (h.pos hm)
  by_cases hfull : q = -1074 ∨ (2 : ℚ) ^ 52 ≤ n / d / 2 ^ q
  · exact roundFraction_of_full hc hm hn hd h hfull
  · obtain ⟨hq, hless⟩ := not_or.1 hfull
    exact roundFraction_of_below hc hm hn hd h hq (not_le.1 hless)

/-! ### Words and what they denote -/

theorem ofWord_toNat {x : Binary64} {negative : Bool} {word : Nat}
    (h : x.bits.toNat = (if negative then pow2 63 else 0) + word) : ofWord negative word = x := by
  rw [ofWord, ← h, UInt64.ofNat_toNat]

theorem negative_spec (x : Binary64) :
    x.bits.toNat = (if x.negative then pow2 63 else 0) + (x.field * pow2 52 + x.fraction) := by
  have hbits := x.bits.toNat_lt
  have hsign : pow2 63 = 2 ^ 63 := rfl
  have hparts : x.bits.toNat =
      x.bits.toNat / 2 ^ 52 / 2 ^ 11 * 2 ^ 63 + (x.field * pow2 52 + x.fraction) := by
    simp only [field, fraction, pow2, Nat.pow_eq]
    omega
  by_cases h : pow2 63 ≤ x.bits.toNat
  · rw [negative, decide_eq_true h, if_pos rfl]
    omega
  · rw [negative, decide_eq_false h, if_neg Bool.false_ne_true]
    omega

/-- A word is the one of the finite number that it denotes. -/
theorem ofWord_of_finite {x : Binary64} {negative : Bool} {m : Nat} {q : Int}
    (h : x.shape = .finite negative m q) :
    Canonical m q ∧ ofWord negative ((q + 1074).toNat * pow2 52 + m) = x := by
  have hfield : x.field < 2048 := Nat.mod_lt _ (pow2_pos 11)
  have hfraction : x.fraction < 2 ^ 52 := Nat.mod_lt _ (pow2_pos 52)
  have hspec := x.negative_spec
  have hpow : pow2 52 = 2 ^ 52 := rfl
  unfold shape at h
  split at h
  · split at h <;> exact absurd h Shape.noConfusion
  · split at h
    · rename_i hzero
      injection h with hn hm hq
      subst hn hm hq
      refine ⟨⟨by omega, by omega, by omega, .inl rfl⟩, ofWord_toNat ?_⟩
      rw [hspec, hzero]
      rfl
    · rename_i hnormal
      injection h with hn hm hq
      subst hn hm hq
      refine ⟨⟨by omega, by omega, by omega, .inr (by omega)⟩, ofWord_toNat ?_⟩
      have hplace : ((x.field : Int) - 1075 + 1074).toNat + 1 = x.field := by omega
      rw [hspec]
      nth_rewrite 1 [← hplace]
      rw [Nat.add_mul, Nat.one_mul, Nat.add_assoc]

theorem ofWord_of_infinite {x : Binary64} {negative : Bool} (h : x.shape = .infinite negative) :
    infinity negative = x := by
  unfold shape at h
  split at h
  · rename_i hfield
    split at h
    · rename_i hfraction
      injection h with hn
      subst hn
      refine ofWord_toNat ?_
      rw [x.negative_spec, hfield, hfraction]
      rfl
    · exact absurd h Shape.noConfusion
  · split at h <;> exact absurd h Shape.noConfusion

end Binary64

end SqlMaps.Number
