import SqlMaps.Proofs.Number.WholeReals

/-! Where the two layouts of a real number write the same.

The layout for reading never uses an exponent and shows a whole number without a point; the one
for statements always marks the number as real. Both lay out the same shortest digits, so the
texts are the same just where the digits reach behind the point and an exponent is not due: for
the numbers that are not whole and not below a ten-thousandth (`write_display_eq_literal_iff`).
That a number is whole, and that it is at least a ten-thousandth, can be told from its shortest
digits though these are only near to it (`eq_of_rounds_whole`, `le_shortest_iff`). -/
namespace SqlMaps.Number

open Binary64 (Canonical Rounds)

namespace Shortest

/-- The digits before the point say how large the number is. -/
theorem Decimal.split_places {x : Decimal} (hx : 0 < x.coefficient) :
    (10 : ℚ) ^ (x.split.2 - 1) ≤ x.coefficient * 10 ^ x.exponent ∧
      (x.coefficient : ℚ) * 10 ^ x.exponent < 10 ^ x.split.2 := by
  have hten : (10 : ℚ) ≠ 0 := by norm_num
  have hpow : (0 : ℚ) < 10 ^ x.exponent := by positivity
  have hplaces : x.split.2 = (digits x.coefficient).length + x.exponent := rfl
  have hlength : 0 < (digits x.coefficient).length := Nat.length_toDigits_pos
  constructor
  · have hfirst : ((10 : ℚ)) ^ ((digits x.coefficient).length - 1) ≤ x.coefficient := by
      exact_mod_cast pow_length_digits_le hx
    calc (10 : ℚ) ^ (x.split.2 - 1)
        = 10 ^ ((digits x.coefficient).length - 1) * 10 ^ x.exponent := by
          rw [← zpow_natCast, ← zpow_add₀ hten]
          congr 1
          omega
      _ ≤ x.coefficient * 10 ^ x.exponent := mul_le_mul_of_nonneg_right hfirst hpow.le
  · calc (x.coefficient : ℚ) * 10 ^ x.exponent
        < 10 ^ (digits x.coefficient).length * 10 ^ x.exponent :=
          mul_lt_mul_of_pos_right (by exact_mod_cast lt_pow_length_digits _) hpow
      _ = 10 ^ x.split.2 := by rw [hplaces, zpow_add₀ hten, zpow_natCast]

variable {m : Nat} {q : Int}

/-- The number that the shortest digits write. -/
def value (m : Nat) (q : Int) : ℚ :=
  (shortest m q).coefficient * 10 ^ (shortest m q).exponent

/-- The shortest digits of the word next to a ten-thousandth, which is a little above it. -/
theorem shortest_tenThousandth : shortest 7378697629483821 (-66) = ⟨1, -4⟩ := by
  decide +kernel

/-- A word is at least a ten-thousandth just where its shortest digits are. -/
theorem le_shortest_iff (hc : Canonical m q) (hm : 0 < m) :
    (10 : ℚ) ^ (-4 : Int) ≤ value m q ↔ (10 : ℚ) ^ (-4 : Int) ≤ m * 2 ^ q := by
  have hrounds : Rounds m q (value m q) := rounds_shortest hc hm
  obtain ⟨hlow, hhigh, -⟩ := hrounds.units hm
  have hunit : (0 : ℚ) < 2 ^ q := by positivity
  rw [le_div_iff₀ hunit] at hlow
  rw [div_le_iff₀ hunit] at hhigh
  have hmost : (m : ℚ) + 1 ≤ 2 ^ 53 := by exact_mod_cast hc.1
  have hword : ((m : ℚ) - 1 / 2) * 2 ^ q ≤ m * 2 ^ q ∧ (m : ℚ) * 2 ^ q ≤ (m + 1 / 2) * 2 ^ q :=
    ⟨mul_le_mul_of_nonneg_right (by linarith) hunit.le,
      mul_le_mul_of_nonneg_right (by linarith) hunit.le⟩
  rcases lt_trichotomy q (-66) with hq | rfl | hq
  · -- every such word is below, and far from it
    have hsmall : (2 : ℚ) ^ q ≤ 2 ^ (-67 : Int) := zpow_le_zpow_right₀ one_le_two (by omega)
    have hbelow : ((m : ℚ) + 1 / 2) * 2 ^ q < 10 ^ (-4 : Int) :=
      calc ((m : ℚ) + 1 / 2) * 2 ^ q ≤ 2 ^ 53 * 2 ^ (-67 : Int) :=
            mul_le_mul (by linarith) hsmall hunit.le (by norm_num)
        _ < 10 ^ (-4 : Int) := by norm_num
    exact iff_of_false (not_le.2 (hhigh.trans_lt hbelow)) (not_le.2 (hword.2.trans_lt hbelow))
  · -- among the words around it, the one next to it is the only one whose interval it is in
    rcases lt_trichotomy m 7378697629483821 with hm' | rfl | hm'
    · have hless : (m : ℚ) ≤ 7378697629483820 := by exact_mod_cast Nat.le_of_lt_succ hm'
      norm_num at hhigh ⊢
      exact iff_of_false (by linarith) (by linarith)
    · rw [value, shortest_tenThousandth]
      norm_num
    · have hmore : (7378697629483822 : ℚ) ≤ m := by exact_mod_cast hm'
      norm_num at hlow ⊢
      exact iff_of_true (by linarith) (by linarith)
  · -- every such word is above
    have hfull : (2 : ℚ) ^ 52 ≤ m := by exact_mod_cast hc.2.2.2.resolve_left (by omega)
    have hlarge : (2 : ℚ) ^ (-65 : Int) ≤ 2 ^ q := zpow_le_zpow_right₀ one_le_two (by omega)
    have habove : (10 : ℚ) ^ (-4 : Int) ≤ (m - 1 / 2) * 2 ^ q :=
      calc (10 : ℚ) ^ (-4 : Int) ≤ (2 ^ 52 - 1 / 2) * 2 ^ (-65 : Int) := by norm_num
        _ ≤ (m - 1 / 2) * 2 ^ q :=
          mul_le_mul (by linarith) hlarge (by positivity) (by linarith)
    exact iff_of_true (habove.trans hlow) (habove.trans hword.1)

/-- The digits of a number that is not whole reach behind the point, and there are at most
sixteen before it. -/
theorem split_of_fraction (hc : Canonical m q) (hm : 0 < m)
    (hfraction : ∀ k : Nat, (m : ℚ) * 2 ^ q ≠ k) :
    (shortest m q).split.2 < (shortest m q).split.1.length ∧ (shortest m q).split.2 ≤ 16 := by
  have hrounds : Rounds m q (value m q) := rounds_shortest hc hm
  have hpos := RealLayout.coefficient_shortest_pos hc hm
  have hq : q < 0 := by
    refine not_le.1 fun hq => hfraction (m * 2 ^ q.toNat) ?_
    rw [zpow_eq_div, show (-q).toNat = 0 by omega]
    simp
  constructor
  · refine not_le.1 fun hwhole => ?_
    obtain ⟨-, hvalue⟩ := Decimal.split_spec hpos
    obtain ⟨zeros, hzeros⟩ := Int.eq_ofNat_of_zero_le (sub_nonneg.2 hwhole)
    rw [hzeros, zpow_natCast] at hvalue
    refine hfraction (Nat.ofDigitChars 10 (shortest m q).split.1 0 * 10 ^ zeros) ?_
    refine eq_of_rounds_whole hm hq.le ?_
    rw [value, hvalue] at hrounds
    exact_mod_cast hrounds
  · obtain ⟨-, hhigh, -⟩ := hrounds.units hm
    rw [div_le_iff₀ (by positivity)] at hhigh
    have hmost : (m : ℚ) + 1 ≤ 2 ^ 53 := by exact_mod_cast hc.1
    have hless : (10 : ℚ) ^ ((shortest m q).split.2 - 1) < 10 ^ (16 : Int) :=
      calc (10 : ℚ) ^ ((shortest m q).split.2 - 1) ≤ value m q := (Decimal.split_places hpos).1
        _ ≤ (m + 1 / 2) * 2 ^ q := hhigh
        _ ≤ 2 ^ 53 * 2 ^ (0 : Int) :=
          mul_le_mul (by linarith) (zpow_le_zpow_right₀ one_le_two hq.le) (by positivity)
            (by norm_num)
        _ < 10 ^ (16 : Int) := by norm_num
    have := (zpow_lt_zpow_iff_right₀ (by norm_num)).1 hless
    omega

/-- The point stands at most three zeros before the digits of a number just where that is at
least a ten-thousandth. -/
theorem le_split_iff (hc : Canonical m q) (hm : 0 < m) :
    -3 ≤ (shortest m q).split.2 ↔ (10 : ℚ) ^ (-4 : Int) ≤ m * 2 ^ q := by
  obtain ⟨hlow, hhigh⟩ := Decimal.split_places (RealLayout.coefficient_shortest_pos hc hm)
  rw [← le_shortest_iff hc hm]
  constructor
  · intro h
    exact le_trans (zpow_le_zpow_right₀ (by norm_num) (by omega)) hlow
  · intro h
    have := (zpow_lt_zpow_iff_right₀ (by norm_num)).1 (h.trans_lt hhigh)
    omega

end Shortest

namespace RealLayout

/-- Where the digits reach behind the point, layouts differ in nothing but the exponent. -/
theorem positionalText_of_lt (layout layout' : RealLayout) {ds : List Char} {places : Int}
    (h : places < ds.length) : layout.positionalText ds places = layout'.positionalText ds places := by
  simp only [positionalText, if_neg (not_le.2 h)]

/-- Where the digits reach behind the point, there is one, and no exponent. -/
theorem point_mem_positionalText {layout : RealLayout} {ds : List Char} {places : Int}
    (h : places < ds.length) (hds : ∀ c ∈ ds, c.isDigit = true) :
    '.' ∈ layout.positionalText ds places ∧ 'e' ∉ layout.positionalText ds places := by
  have he : 'e' ∉ ds := fun hmem => absurd (hds 'e' hmem) (by decide)
  rw [positionalText, if_neg (not_le.2 h)]
  split
  · simp [he]
  · have htake : 'e' ∉ ds.take places.toNat := fun hmem => he (List.mem_of_mem_take hmem)
    have hdrop : 'e' ∉ ds.drop places.toNat := fun hmem => he (List.mem_of_mem_drop hmem)
    simp [htake, hdrop]

theorem power_mem_exponentText {ds : List Char} (places : Int) : 'e' ∈ exponentText ds places := by
  unfold exponentText
  split <;> simp

variable {m : Nat} {q : Int}

/-- A magnitude that is not whole is written for reading with a point, and as for statements if
it is at least a ten-thousandth. -/
theorem magnitudeText_of_fraction (hc : Canonical m q) (hm : 0 < m)
    (hfraction : ∀ k : Nat, (m : ℚ) * 2 ^ q ≠ k) :
    '.' ∈ display.magnitudeText m q ∧
      (display.magnitudeText m q = literal.magnitudeText m q ↔ (10 : ℚ) ^ (-4 : Int) ≤ m * 2 ^ q) := by
  obtain ⟨hpoint, hmost⟩ := Shortest.split_of_fraction hc hm hfraction
  have hds : ∀ c ∈ (Shortest.shortest m q).split.1, c.isDigit = true := fun c hc => mem_split hc
  obtain ⟨hmark, hplain⟩ :=
    @point_mem_positionalText display _ _ hpoint hds
  have hdisplay : display.magnitudeText m q =
      display.positionalText (Shortest.shortest m q).split.1 (Shortest.shortest m q).split.2 := by
    rw [magnitudeText, if_neg hm.ne']
    rfl
  have hliteral : literal.magnitudeText m q =
      if -3 ≤ (Shortest.shortest m q).split.2 ∧ (Shortest.shortest m q).split.2 ≤ 16 then
        literal.positionalText (Shortest.shortest m q).split.1 (Shortest.shortest m q).split.2
      else exponentText (Shortest.shortest m q).split.1 (Shortest.shortest m q).split.2 := by
    rw [magnitudeText, if_neg hm.ne']
    rfl
  rw [hdisplay, hliteral, ← Shortest.le_split_iff hc hm]
  refine ⟨hmark, ?_⟩
  by_cases hleast : -3 ≤ (Shortest.shortest m q).split.2
  · rw [if_pos ⟨hleast, hmost⟩]
    exact iff_of_true (positionalText_of_lt _ _ hpoint) hleast
  · rw [if_neg fun h => hleast h.1]
    refine iff_of_false (fun heq => hplain ?_) hleast
    rw [heq]
    exact power_mem_exponentText _

end RealLayout

namespace Binary64
variable {x : Binary64} {negative : Bool} {m : Nat} {q : Int}

/-- A word that denotes a whole number is found to do so. -/
theorem exists_toInt? (h : x.shape = .finite negative m q) {k : Nat} (hk : (m : ℚ) * 2 ^ q = k) :
    ∃ n, x.toInt? = some n := by
  have hscaled : m * 2 ^ q.toNat = k * 2 ^ (-q).toNat := by
    rw [zpow_eq_div, mul_div_assoc', div_eq_iff (by positivity)] at hk
    exact_mod_cast hk
  have hmod : m % pow2 (-q).toNat = 0 := by
    rcases le_or_gt 0 q with hq | hq
    · rw [show (-q).toNat = 0 by omega]
      exact Nat.mod_one m
    · rw [show q.toNat = 0 by omega, pow_zero, mul_one] at hscaled
      rw [hscaled]
      exact Nat.mul_mod_left _ _
  simp only [toInt?, h, hmod, if_true]
  exact ⟨_, rfl⟩

/-- The text for reading of a number that is not whole has a point, and is that for statements if
the number is at least a ten-thousandth. -/
theorem point_mem_display (h : x.shape = .finite negative m q) (hfraction : x.toInt? = none) :
    '.' ∈ RealLayout.display.write x ∧
      (RealLayout.display.write x = RealLayout.literal.write x ↔
        (10 : ℚ) ^ (-4 : Int) ≤ m * 2 ^ q) := by
  have hnot : ∀ k : Nat, (m : ℚ) * 2 ^ q ≠ k := by
    intro k hk
    obtain ⟨n, hn⟩ := exists_toInt? h hk
    rw [hfraction] at hn
    cases hn
  have hm : 0 < m := Nat.pos_of_ne_zero fun hm => hnot 0 (by simp [hm])
  obtain ⟨hpoint, hsame⟩ := RealLayout.magnitudeText_of_fraction (ofWord_of_finite h).1 hm hnot
  simp only [RealLayout.write, h, List.mem_append, List.append_cancel_left_eq]
  exact ⟨.inr hpoint, hsame⟩

/-- The text for reading of a whole number has neither a point nor an exponent. -/
theorem mark_not_mem_display {n : Int} (h : x.toInt? = some n) :
    '.' ∉ RealLayout.display.write x ∧ 'e' ∉ RealLayout.display.write x := by
  obtain ⟨sign, ds, htext, -, hds, -⟩ := write_display h
  have hnone : ∀ c : Char, c.isDigit = false → c ≠ '-' →
      c ∉ (if sign then ['-'] else []) ++ ds := by
    intro c hdigit hminus hmem
    rcases List.mem_append.1 hmem with hmem | hmem
    · cases sign
      · cases hmem
      · exact hminus (List.mem_singleton.1 hmem)
    · rw [hds c hmem] at hdigit
      cases hdigit
  rw [htext]
  exact ⟨hnone '.' (by decide) (by decide), hnone 'e' (by decide) (by decide)⟩

/-- The texts for reading and for statements are the same just for the numbers that are not whole
and at least a ten-thousandth. -/
theorem write_display_eq_literal_iff (h : x.shape = .finite negative m q) :
    RealLayout.display.write x = RealLayout.literal.write x ↔
      x.toInt? = none ∧ (10 : ℚ) ^ (-4 : Int) ≤ m * 2 ^ q := by
  cases hwhole : x.toInt? with
  | none => simpa using (point_mem_display h hwhole).2
  | some n =>
    refine iff_of_false (fun heq => ?_) (by simp)
    obtain ⟨p, hliteral, hmarked, -⟩ := exists_literal h
    obtain ⟨hpoint, hpower⟩ := mark_not_mem_display hwhole
    rw [heq, hliteral, List.mem_append] at hpoint hpower
    exact hmarked.mem.elim (fun hmem => hpoint (.inr hmem)) (fun hmem => hpower (.inr hmem))

end Binary64

end SqlMaps.Number
