import Mathlib.Data.Nat.Digits.Lemmas
import SqlMaps.Proofs.Number.Rounding

/-! The shortest digits of a word lie in its interval.

`nearest?` only gives a number that it found inside (`nearest?_cases`), so what is left is that
the search finds one. It does by seventeen digits: the grid is then so fine that two neighbours
with the word between them cannot both lie outside. The first grid with a number inside ends
the search (`exists_shortest`), and that number rounds to the word (`rounds_shortest`). -/
namespace SqlMaps.Number

theorem lt_pow_length_digits (n : Nat) : n < 10 ^ (digits n).length :=
  (Nat.length_toDigits_le_iff (by decide) Nat.length_toDigits_pos).1 (le_refl _)

theorem pow_length_digits_le {n : Nat} (hn : 0 < n) : 10 ^ ((digits n).length - 1) ≤ n := by
  rcases Nat.eq_zero_or_pos ((digits n).length - 1) with h | h
  · rw [h]
    exact hn
  · refine Nat.not_lt.1 fun hless => ?_
    have := (Nat.length_toDigits_le_iff (by decide) h).2 hless
    rw [← digits] at this
    omega

namespace Shortest

open Binary64 (Canonical Rounds)

/-- The first digit of a fraction stands in the place that its magnitude says. -/
theorem magnitude_spec {n d : Nat} (hn : 0 < n) (hd : 0 < d) :
    (10 : ℚ) ^ (magnitude n d - 1) ≤ n / d ∧ (n : ℚ) / d < 10 ^ magnitude n d := by
  have hsucc : ∀ k, (digits k).length - 1 + 1 = (digits k).length := fun k =>
    Nat.sub_add_cancel Nat.length_toDigits_pos
  obtain ⟨hbelow, habove⟩ := div_between_zpow (b := 10) (by decide) hd (pow_length_digits_le hn)
    (by rw [hsucc]; exact lt_pow_length_digits n) (pow_length_digits_le hd)
    (by rw [hsucc]; exact lt_pow_length_digits d)
  have htest := div_lt_zpow_iff (n := n) hd (b := 10) (by decide)
    ((digits n).length - (digits d).length)
  have hlengths : (((digits n).length - 1 : Nat) : Int) - ((digits d).length - 1 : Nat) =
      (digits n).length - (digits d).length := by
    have := hsucc n
    have := hsucc d
    omega
  rw [hlengths] at hbelow habove
  have hmagnitude : magnitude n d =
      let e : Int := ((digits n).length : Int) - (digits d).length
      if n * pow10 (-e).toNat < d * pow10 e.toNat then e else e + 1 := rfl
  rw [hmagnitude]
  dsimp only
  split
  · rename_i h
    exact ⟨hbelow.le, by simpa using htest.2 h⟩
  · rename_i h
    exact ⟨by simpa using mt htest.1 h, habove⟩

/-! ### The grid -/

/-- Numbers of the interval and of the grid are compared in units of one denominator. -/
theorem scaled_le_iff (a c : Nat) (q k : Int) :
    a * (pow2 (q - 2).toNat * pow10 (-k).toNat) ≤ c * (pow2 (2 - q).toNat * pow10 k.toNat) ↔
      (a : ℚ) * 2 ^ (q - 2) ≤ c * 10 ^ k := by
  have hleft : (0 : ℚ) < 2 ^ (-(q - 2)).toNat := by positivity
  have hright : (0 : ℚ) < 10 ^ (-k).toNat := by positivity
  rw [zpow_eq_div 2, zpow_eq_div 10, ← mul_div_assoc, ← mul_div_assoc,
    div_le_div_iff₀ hleft hright, show -(q - 2) = 2 - q by ring, ← Nat.cast_le (α := ℚ)]
  push_cast [cast_pow2, cast_pow10]
  ring_nf

theorem le_scaled_iff (a c : Nat) (q k : Int) :
    c * (pow2 (2 - q).toNat * pow10 k.toNat) ≤ a * (pow2 (q - 2).toNat * pow10 (-k).toNat) ↔
      (c : ℚ) * 10 ^ k ≤ a * 2 ^ (q - 2) := by
  have hleft : (0 : ℚ) < 2 ^ (-(q - 2)).toNat := by positivity
  have hright : (0 : ℚ) < 10 ^ (-k).toNat := by positivity
  rw [zpow_eq_div 2, zpow_eq_div 10, ← mul_div_assoc, ← mul_div_assoc,
    div_le_div_iff₀ hright hleft, show -(q - 2) = 2 - q by ring, ← Nat.cast_le (α := ℚ)]
  push_cast [cast_pow2, cast_pow10]
  ring_nf

/-- The test that `nearest?` makes. -/
def inside (m : Nat) (q k : Int) (c : Nat) : Bool :=
  let i := interval m q
  let scale := pow2 (q - 2).toNat * pow10 (-k).toNat
  let d := pow2 (2 - q).toNat * pow10 k.toNat
  if i.closed then i.low * scale ≤ c * d && c * d ≤ i.high * scale
  else i.low * scale < c * d && c * d < i.high * scale

theorem inside_iff {m c : Nat} {q k : Int} :
    inside m q k c = true ↔ Rounds m q (c * 10 ^ k) := by
  unfold inside Rounds
  dsimp only
  split
  · rename_i hclosed
    simp [scaled_le_iff, le_scaled_iff, hclosed]
  · rename_i hopen
    simp only [← Nat.not_le, Bool.and_eq_true, decide_eq_true_eq, scaled_le_iff, le_scaled_iff,
      not_le]
    have hopen' : (interval m q).closed = false := by simpa using hopen
    exact ⟨fun h => ⟨h.1.le, h.2.le, fun _ => h⟩, fun h => h.2.2 hopen'⟩

/-- The number of the grid below a word, in units of the grid. -/
def gridBelow (m : Nat) (q k : Int) : Nat :=
  (interval m q).value * (pow2 (q - 2).toNat * pow10 (-k).toNat) / (pow2 (2 - q).toNat * pow10 k.toNat)

/-- What the grid gives lies inside, and if it gives nothing then neither neighbour does. -/
theorem nearest?_cases (m : Nat) (q k : Int) :
    (∃ c, nearest? (interval m q) (pow2 (q - 2).toNat) (pow2 (2 - q).toNat) k = some ⟨c, k⟩ ∧
      inside m q k c = true) ∨
    nearest? (interval m q) (pow2 (q - 2).toNat) (pow2 (2 - q).toNat) k = none ∧
      inside m q k (gridBelow m q k) = false ∧ inside m q k (gridBelow m q k + 1) = false := by
  unfold nearest?
  dsimp only
  split
  · rename_i h1 h2
    split
    · exact .inl ⟨_, rfl, h1⟩
    · exact .inl ⟨_, rfl, h2⟩
  · rename_i h1 _
    exact .inl ⟨_, rfl, h1⟩
  · rename_i _ h2
    exact .inl ⟨_, rfl, h2⟩
  · rename_i h1 h2
    exact .inr ⟨rfl, h1, h2⟩

/-- The word lies between its neighbours on the grid. -/
theorem gridBelow_spec (m : Nat) (q k : Int) :
    (gridBelow m q k : ℚ) * 10 ^ k ≤ 4 * m * 2 ^ (q - 2) ∧
      (4 * m : ℚ) * 2 ^ (q - 2) < (gridBelow m q k + 1) * 10 ^ k := by
  have hvalue : (interval m q).value = 4 * m := rfl
  have hpos : 0 < pow2 (2 - q).toNat * pow10 k.toNat := Nat.mul_pos (pow2_pos _) (pow10_pos _)
  constructor
  · have := (le_scaled_iff (4 * m) (gridBelow m q k) q k).1
      (by rw [gridBelow, hvalue]; exact Nat.div_mul_le_self _ _)
    exact_mod_cast this
  · have hless : ¬ (gridBelow m q k + 1) * (pow2 (2 - q).toNat * pow10 k.toNat) ≤
        4 * m * (pow2 (q - 2).toNat * pow10 (-k).toNat) := by
      rw [not_le, ← Nat.div_lt_iff_lt_mul hpos]
      exact Nat.lt_succ_self _
    rw [le_scaled_iff, not_le] at hless
    exact_mod_cast hless

/-- The word lies strictly inside its interval, and the interval is wider than the last of
sixteen places behind the first digit. -/
theorem interval_width {m : Nat} (q : Int) (hm : 0 < m) (hm' : m < 2 ^ 53) :
    ((interval m q).low : ℚ) < 4 * m ∧ 4 * (m : ℚ) < (interval m q).high ∧
      (4 * m : ℚ) < ((interval m q).high - (interval m q).low) * 10 ^ 16 := by
  have hmQ : (m : ℚ) < 2 ^ 53 := by exact_mod_cast hm'
  rw [Binary64.cast_interval_high]
  obtain ⟨⟨hpower, -⟩, hlow⟩ | ⟨-, hlow⟩ := Binary64.cast_interval_low q hm
  · rw [hlow]
    refine ⟨by linarith, by linarith, ?_⟩
    rw [hpower]
    norm_num
  · rw [hlow]
    exact ⟨by linarith, by linarith, by linarith⟩

/-- A grid with sixteen places behind the first digit of a word has a number inside. -/
theorem exists_nearest? {m : Nat} {q k : Int} (hm : 0 < m) (hm' : m < 2 ^ 53)
    (hk : (10 : ℚ) ^ k * 10 ^ 16 ≤ 4 * m * 2 ^ (q - 2)) :
    ∃ c, nearest? (interval m q) (pow2 (q - 2).toNat) (pow2 (2 - q).toNat) k = some ⟨c, k⟩ ∧
      inside m q k c = true := by
  refine (nearest?_cases m q k).resolve_right ?_
  rintro ⟨-, hbelow, habove⟩
  obtain ⟨hle, hlt⟩ := gridBelow_spec m q k
  obtain ⟨hlow, hhigh, hwidth⟩ := interval_width q hm hm'
  have hunit : (0 : ℚ) < 2 ^ (q - 2) := by positivity
  have hlow' := mul_lt_mul_of_pos_right hlow hunit
  have hhigh' := mul_lt_mul_of_pos_right hhigh hunit
  have hwidth' := mul_lt_mul_of_pos_right hwidth hunit
  rw [← Bool.not_eq_true, inside_iff] at hbelow habove
  push_cast at habove
  -- the neighbour below the word can only be outside below the interval, the other one above it
  have hout : (gridBelow m q k : ℚ) * 10 ^ k ≤ (interval m q).low * 2 ^ (q - 2) :=
    not_lt.1 fun h => hbelow ⟨h.le, by linarith, fun _ => ⟨h, by linarith⟩⟩
  have hout' : (interval m q).high * 2 ^ (q - 2) ≤ ((gridBelow m q k : ℚ) + 1) * 10 ^ k :=
    not_lt.1 fun h => habove ⟨by linarith, h.le, fun _ => ⟨by linarith, h⟩⟩
  have hgap : ((interval m q).high - (interval m q).low) * 2 ^ (q - 2) ≤ (10 : ℚ) ^ k := by
    linarith
  linarith

/-- How many digits of a word stand before the point. -/
def places (m : Nat) (q : Int) : Int :=
  magnitude ((interval m q).value * pow2 (q - 2).toNat) (pow2 (2 - q).toNat)

theorem places_spec {m : Nat} (q : Int) (hm : 0 < m) :
    (10 : ℚ) ^ (places m q - 1) ≤ 4 * m * 2 ^ (q - 2) ∧
      (4 * m : ℚ) * 2 ^ (q - 2) < 10 ^ places m q := by
  have hvalue : (((interval m q).value * pow2 (q - 2).toNat : Nat) : ℚ) / (pow2 (2 - q).toNat : Nat) =
      4 * m * 2 ^ (q - 2) := by
    rw [zpow_eq_div, show -(q - 2) = 2 - q by ring, ← mul_div_assoc]
    push_cast [interval, cast_pow2]
    ring
  rw [← hvalue]
  exact magnitude_spec (Nat.mul_pos (Nat.mul_pos (by decide) hm) (pow2_pos _)) (pow2_pos _)

/-- The numbers that the search tries, from the coarsest grid on. -/
def grid (m : Nat) (q : Int) (n : Nat) : Option Decimal :=
  nearest? (interval m q) (pow2 (q - 2).toNat) (pow2 (2 - q).toNat) (places m q - (n + 1))

/-- The search ends at the first grid with a number inside. -/
theorem exists_shortest {m : Nat} {q : Int} (hc : Canonical m q) (hm : 0 < m) :
    ∃ n c, shortest m q = ⟨c, places m q - ((n : Nat) + 1)⟩ ∧
      inside m q (places m q - (n + 1)) c = true ∧ ∀ n' < n, grid m q n' = none := by
  have hlast : ∃ x, grid m q 16 = some x := by
    obtain ⟨c, hsome, -⟩ := exists_nearest? (k := places m q - ((16 : Nat) + 1)) hm hc.1 (by
      refine le_trans (le_of_eq ?_) (places_spec q hm).1
      rw [← zpow_natCast, ← zpow_add₀ (by norm_num)]
      congr 1
      omega)
    exact ⟨_, hsome⟩
  obtain ⟨x, hx⟩ : ∃ x, (List.range mostDigits).findSome? (grid m q) = some x := by
    obtain ⟨x, hx⟩ := hlast
    exact Option.isSome_iff_exists.1
      (List.findSome?_isSome_iff.2 ⟨16, by decide, by rw [hx]; rfl⟩)
  have hshortest : shortest m q = x := by
    change ((List.range mostDigits).findSome? (grid m q)).getD _ = x
    rw [hx]
    rfl
  obtain ⟨before, n, behind, hsplit, hn, hnone⟩ := List.findSome?_eq_some_iff.1 hx
  obtain ⟨c, hsome, hinside⟩ | ⟨hnot, -⟩ := nearest?_cases m q (places m q - (n + 1))
  · obtain rfl : x = ⟨c, places m q - (n + 1)⟩ := Option.some.inj (hn.symm.trans hsome)
    refine ⟨n, c, hshortest, hinside, fun n' hn' => hnone n' ?_⟩
    -- the grids behind `n` are finer, so `n'` can only stand before it
    have hsorted := List.pairwise_lt_range (n := mostDigits)
    have hmem : n' ∈ List.range mostDigits := by
      have hmost : n ∈ List.range mostDigits := by simp [hsplit]
      exact List.mem_range.2 (hn'.trans (List.mem_range.1 hmost))
    rw [hsplit] at hsorted hmem
    have hbehind := (List.pairwise_cons.1 (List.pairwise_append.1 hsorted).2.1).1
    rcases List.mem_append.1 hmem with h | h
    · exact h
    · rcases List.mem_cons.1 h with rfl | h
      · exact absurd hn' (lt_irrefl _)
      · exact absurd (hbehind n' h) (by omega)
  · exact absurd (hn.symm.trans hnot) (Option.some_ne_none x)

/-- The shortest digits of a word round to it. -/
theorem rounds_shortest {m : Nat} {q : Int} (hc : Canonical m q) (hm : 0 < m) :
    Rounds m q ((shortest m q).coefficient * 10 ^ (shortest m q).exponent) := by
  obtain ⟨n, c, hshortest, hinside, -⟩ := exists_shortest hc hm
  rw [hshortest]
  exact inside_iff.1 hinside

end Shortest

end SqlMaps.Number
