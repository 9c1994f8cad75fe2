import Mathlib.Data.List.TakeWhile
import SqlMaps.Proofs.Number.ShortestDigits
import SqlMaps.Proofs.Number.IntegerReading

/-! A real number is read back from its text.

The text of a magnitude, in either layout, is cut into the parts that a reader takes one after
another (`Parts`), and what the parts denote are the shortest digits (`exists_parts`). Those
round to the word that was written (`rounds_shortest`), so the reader gives that word
(`read_write`). -/
namespace SqlMaps.Number

/-- Zeros at the end of the digits only shift the point. -/
theorem Shortest.Decimal.split_spec {x : Shortest.Decimal} (hx : 0 < x.coefficient) :
    x.split.1 ≠ [] ∧ (x.coefficient : ℚ) * 10 ^ x.exponent =
      Nat.ofDigitChars 10 x.split.1 0 * 10 ^ (x.split.2 - x.split.1.length) := by
  let zeros := ((digits x.coefficient).reverse.takeWhile (· == '0')).length
  have hcut : digits x.coefficient = x.split.1 ++ List.replicate zeros '0' := by
    have hzeros : (digits x.coefficient).reverse.takeWhile (· == '0') = List.replicate zeros '0' :=
      List.eq_replicate_iff.2 ⟨rfl, fun c hc => by simpa using List.mem_takeWhile_imp hc⟩
    have hparts := List.takeWhile_append_dropWhile (p := (· == '0')) (l := (digits x.coefficient).reverse)
    rw [hzeros] at hparts
    have := congrArg List.reverse hparts
    rw [List.reverse_append, List.reverse_replicate, List.reverse_reverse] at this
    exact this.symm
  have hvalue : x.coefficient = 10 ^ zeros * Nat.ofDigitChars 10 x.split.1 0 := by
    have hread : Nat.ofDigitChars 10 (digits x.coefficient) 0 = x.coefficient :=
      Nat.ofDigitChars_ten_toDigits
    rw [hcut, Nat.ofDigitChars_append, Nat.ofDigitChars_replicate_zero] at hread
    exact hread.symm
  have hplaces : x.split.2 - x.split.1.length = zeros + x.exponent := by
    have hlength := congrArg List.length hcut
    rw [List.length_append, List.length_replicate] at hlength
    have : x.split.2 = (digits x.coefficient).length + x.exponent := rfl
    omega
  constructor
  · intro hnil
    rw [hnil, Nat.ofDigitChars_nil] at hvalue
    omega
  · rw [hplaces, zpow_add₀ (by norm_num), zpow_natCast]
    nth_rewrite 1 [hvalue]
    push_cast
    ring

namespace Binary64

/-- All words lie between powers of ten that the reader does not settle by themselves. -/
theorem Rounds.between {m : Nat} {q : Int} {v : ℚ} (h : Rounds m q v) (hc : Canonical m q)
    (hm : 0 < m) : (10 : ℚ) ^ (-330 : Int) < v ∧ v < 10 ^ (310 : Int) := by
  have hmQ : (1 : ℚ) ≤ m := by exact_mod_cast hm
  have hmQ' : (m : ℚ) + 1 ≤ 2 ^ 53 := by exact_mod_cast hc.1
  obtain ⟨hlow, hhigh, -, -⟩ := h.units hm
  have hunit : (0 : ℚ) < 2 ^ q := by positivity
  rw [le_div_iff₀ hunit] at hlow
  rw [div_le_iff₀ hunit] at hhigh
  have hpowers : ∀ {i j : Nat}, pow2 i < pow10 j → (2 : ℚ) ^ i < 10 ^ j := fun h => by
    rw [← cast_pow2, ← cast_pow10]
    exact Nat.cast_lt.2 h
  constructor
  · calc (10 : ℚ) ^ (-330 : Int) = (10 ^ 330)⁻¹ := by
          rw [show (-330 : Int) = -(330 : Nat) from rfl, zpow_neg, zpow_natCast]
      _ < (2 ^ 1075)⁻¹ :=
        (inv_lt_inv₀ (by positivity) (by positivity)).2 (hpowers (by decide +kernel))
      _ = 1 / 2 * 2 ^ (-1074 : Int) := by
        rw [show (-1074 : Int) = -(1074 : Nat) from rfl, zpow_neg, zpow_natCast, pow_succ, mul_inv,
          mul_comm, one_div]
      _ ≤ 1 / 2 * 2 ^ q :=
        mul_le_mul_of_nonneg_left (zpow_le_zpow_right₀ one_le_two hc.2.1) (by norm_num)
      _ ≤ (m - 1 / 2) * 2 ^ q := mul_le_mul_of_nonneg_right (by linarith) hunit.le
      _ ≤ v := hlow
  · calc v ≤ (m + 1 / 2) * 2 ^ q := hhigh
      _ < 2 ^ 53 * 2 ^ q := mul_lt_mul_of_pos_right (by linarith) hunit
      _ ≤ 2 ^ 53 * 2 ^ (971 : Int) :=
        mul_le_mul_of_nonneg_left (zpow_le_zpow_right₀ one_le_two hc.2.2.1) (by positivity)
      _ = 2 ^ 1024 := by
        rw [show (971 : Int) = (971 : Nat) from rfl, zpow_natCast, ← pow_add]
      _ < 10 ^ 310 := hpowers (by decide +kernel)
      _ = 10 ^ (310 : Int) := rfl

/-- A decimal number that rounds to a word is read as that word. -/
theorem ofDecimal_of_rounds {m : Nat} {q : Int} (hc : Canonical m q) (hm : 0 < m) {n : Nat}
    {e : Int} (h : Rounds m q (n * 10 ^ e)) (negative : Bool) :
    ofDecimal negative n e = ofWord negative ((q + 1074).toNat * pow2 52 + m) := by
  have hten : (10 : ℚ) ≠ 0 := by norm_num
  have hpow : (0 : ℚ) < 10 ^ e := by positivity
  have hn : 0 < n := by
    have := (mul_pos_iff_of_pos_right hpow).1 (h.pos hm)
    exact_mod_cast this
  obtain ⟨hleast, hmost⟩ := h.between hc hm
  -- the places bound the number from both sides
  have hplaces : ¬ ((digits n).length + e < -330) := by
    intro hfew
    have : (n : ℚ) * 10 ^ e < 10 ^ (-330 : Int) :=
      calc (n : ℚ) * 10 ^ e < 10 ^ (digits n).length * 10 ^ e :=
            mul_lt_mul_of_pos_right (by exact_mod_cast lt_pow_length_digits n) hpow
        _ = 10 ^ ((digits n).length + e) := by rw [zpow_add₀ hten, zpow_natCast]
        _ ≤ 10 ^ (-330 : Int) := zpow_le_zpow_right₀ (by norm_num) (by omega)
    exact lt_asymm this hleast
  have hplaces' : ¬ ((digits n).length + e > 310) := by
    intro hmany
    have hfirst : (10 : ℚ) ^ ((digits n).length - 1) ≤ n := by
      exact_mod_cast pow_length_digits_le hn
    have : (10 : ℚ) ^ (310 : Int) ≤ n * 10 ^ e :=
      calc (10 : ℚ) ^ (310 : Int) ≤ 10 ^ (((digits n).length - 1 : Nat) + e) :=
            zpow_le_zpow_right₀ (by norm_num) (by omega)
        _ = 10 ^ ((digits n).length - 1) * 10 ^ e := by rw [zpow_add₀ hten, zpow_natCast]
        _ ≤ n * 10 ^ e := mul_le_mul_of_nonneg_right hfirst hpow.le
    exact not_lt.2 this hmost
  have hfraction : ((n * pow10 e.toNat : Nat) : ℚ) / (pow10 (-e).toNat : Nat) = n * 10 ^ e := by
    rw [zpow_eq_div 10 e, Nat.cast_mul, cast_pow10, cast_pow10, mul_div_assoc]
  simp only [ofDecimal]
  rw [if_neg (by omega), if_neg hplaces', ofFraction,
    roundFraction_of_rounds hc hm (pow10_pos _) (by rwa [hfraction])]

end Binary64

/-! ### The parts of a decimal number -/

/-- A run of characters, and what follows where it ends. -/
theorem takeWhile_stop {p : Char → Bool} {run rest : List Char} (hrun : ∀ c ∈ run, p c = true)
    (hrest : ∀ c ∈ rest.head?, p c = false) :
    (run ++ rest).takeWhile p = run ∧ (run ++ rest).dropWhile p = rest := by
  rw [List.takeWhile_append_of_pos hrun, List.dropWhile_append_of_pos hrun]
  cases rest with
  | nil => simp
  | cons c rest => simp [hrest c (by simp)]

/-- A decimal number as the reader takes it apart. -/
structure Parts where
  whole : List Char
  /-- The digits behind the point, if there is one. -/
  fraction : Option (List Char)
  power : Option Int
  whole_ne : whole ≠ []
  whole_digits : ∀ c ∈ whole, c.isDigit = true
  fraction_digits : ∀ c ∈ fraction.getD [], c.isDigit = true

namespace Parts

def fractionText : Option (List Char) → List Char
  | none => []
  | some ds => '.' :: ds

def powerText : Option Int → List Char
  | none => []
  | some e => 'e' :: ofInt e

/-- The text of the number. -/
def text (p : Parts) : List Char :=
  p.whole ++ (fractionText p.fraction ++ powerText p.power)

/-- The number without its point. -/
def coefficient (p : Parts) : Nat :=
  Nat.ofDigitChars 10 (p.whole ++ p.fraction.getD []) 0

/-- The power of ten that puts the point in its place. -/
def exponent (p : Parts) : Int :=
  p.power.getD 0 - (p.fraction.getD []).length

/-- Whether the text shows that the number is a real one. -/
def Marked (p : Parts) : Prop :=
  p.fraction.isSome ∨ p.power.isSome

/-- The mark of a real number stands in its text. -/
theorem Marked.mem {p : Parts} (h : p.Marked) : '.' ∈ p.text ∨ 'e' ∈ p.text := by
  rcases h with h | h
  · obtain ⟨ds, hf⟩ := Option.isSome_iff_exists.1 h
    exact .inl (by simp [text, hf, fractionText])
  · obtain ⟨e, hp⟩ := Option.isSome_iff_exists.1 h
    exact .inr (by simp [text, hp, powerText])

theorem all_digits {n : Nat} : (digits n).all Char.isDigit = true :=
  List.all_eq_true.2 fun _ h => mem_digits h

theorem readExponent?_powerText (power : Option Int) :
    Binary64.readExponent? (powerText power) = some (power.getD 0) := by
  have hne : ∀ n, digits n ≠ [] := fun n => Nat.toDigits_ne_nil
  have hread : ∀ n, Nat.ofDigitChars 10 (digits n) 0 = n := fun n => Nat.ofDigitChars_ten_toDigits
  cases power with
  | none => rfl
  | some e =>
    cases e with
    | ofNat n =>
      obtain ⟨c, rest, hcons, hc⟩ := digits_eq_cons n
      have hall := all_digits (n := n)
      have hvalue := hread n
      simp only [powerText, ofInt, Option.getD_some]
      rw [hcons] at hall hvalue ⊢
      simp [Binary64.readExponent?, ne_sign_of_isDigit hc, hall, hvalue]
    | negSucc n =>
      simp [powerText, Binary64.readExponent?, ofInt, hne, all_digits, hread, Int.negSucc_eq]

theorem head_powerText (power : Option Int) : ∀ c ∈ (powerText power).head?, c = 'e' := by
  cases power <;> simp [powerText]

/-- The reader takes the parts one after another. -/
theorem readDecimal?_text (p : Parts) (negative : Bool) :
    Binary64.readDecimal? negative p.text =
      some (Binary64.ofDecimal negative p.coefficient p.exponent) := by
  have hpower : ∀ c ∈ (powerText p.power).head?, c.isDigit = false := fun c hc => by
    rw [head_powerText p.power c hc]
    decide
  have hwhole : p.whole.isEmpty = false := by simpa using p.whole_ne
  have hdigits := p.fraction_digits
  unfold Binary64.readDecimal? text coefficient exponent
  cases hf : p.fraction with
  | none =>
    obtain ⟨htake, hdrop⟩ := takeWhile_stop p.whole_digits hpower
    simp only [fractionText, List.nil_append, htake, hdrop]
    cases hp : p.power with
    | none => simp [powerText, Binary64.readExponent?, hwhole]
    | some e =>
      have := readExponent?_powerText (some e)
      simp only [powerText] at this
      simp [powerText, this, hwhole]
  | some ds =>
    rw [hf] at hdigits
    have hpoint : ∀ c ∈ (fractionText (some ds) ++ powerText p.power).head?, c.isDigit = false := by
      simp [fractionText]
    obtain ⟨htake, hdrop⟩ := takeWhile_stop p.whole_digits hpoint
    obtain ⟨htake', hdrop'⟩ := takeWhile_stop hdigits hpower
    simp only [htake, hdrop]
    simp only [Option.getD_some] at htake' hdrop'
    simp [fractionText, htake', hdrop', readExponent?_powerText, hwhole]

/-- The number that the parts denote. -/
def value (p : Parts) : ℚ :=
  p.coefficient * 10 ^ p.exponent

theorem value_eq {p : Parts} {n : Nat} {e : Int} (hn : p.coefficient = n) (he : p.exponent = e) :
    p.value = n * 10 ^ e := by
  rw [value, hn, he]

end Parts

namespace RealLayout

/-- A layout in which whole numbers end in nothing, or in a point and zeros. -/
structure EndsIn (layout : RealLayout) (zeros : Option (List Char)) : Prop where
  wholeEnd : layout.wholeEnd = Parts.fractionText zeros
  zeros : ∃ n, zeros.getD [] = List.replicate n '0'

theorem endsIn_literal : literal.EndsIn (some ['0']) := ⟨rfl, 1, rfl⟩

theorem endsIn_display : display.EndsIn none := ⟨rfl, 0, rfl⟩

variable {layout : RealLayout} {zeros : Option (List Char)}

/-- Zeros and a point leave the digits and their places as they are. -/
theorem exists_positional (hend : layout.EndsIn zeros) {ds : List Char} (hne : ds ≠ [])
    (hds : ∀ c ∈ ds, c.isDigit = true) (places : Int) :
    ∃ p : Parts, p.text = layout.positionalText ds places ∧ (zeros.isSome → p.Marked) ∧
      p.value = Nat.ofDigitChars 10 ds 0 * 10 ^ (places - ds.length) := by
  have hzeros : ∀ {n} {c : Char}, c ∈ List.replicate n '0' → c.isDigit = true := fun h => by
    rw [List.eq_of_mem_replicate h]
    decide
  obtain ⟨hwhole, k, hk⟩ := hend
  unfold positionalText
  split
  · -- zeros stand before all digits
    refine ⟨⟨['0'], some (List.replicate (-places).toNat '0' ++ ds), none, by simp, by simp, ?_⟩,
      by simp [Parts.text, Parts.fractionText, Parts.powerText], fun _ => .inl rfl,
      Parts.value_eq ?_ ?_⟩
    · simp only [Option.getD_some, List.mem_append]
      exact fun c hc => hc.elim hzeros (hds c)
    · simp [Parts.coefficient, Nat.ofDigitChars_cons, Nat.ofDigitChars_append]
    · simp only [Parts.exponent, Option.getD_none, Option.getD_some, List.length_append,
        List.length_replicate]
      omega
  · split
    · -- all digits stand before the point, and zeros fill the places between
      refine ⟨⟨ds ++ List.replicate (places.toNat - ds.length) '0', zeros, none, by simp [hne], ?_,
        fun c hc => hzeros (hk ▸ hc)⟩, by simp [Parts.text, Parts.powerText, hwhole], .inl, ?_⟩
      · simp only [List.mem_append]
        exact fun c hc => hc.elim (hds c) hzeros
      · have hshift : places - ds.length = (places.toNat - ds.length : Nat) := by omega
        rw [Parts.value_eq
          (n := 10 ^ (places.toNat - ds.length + k) * Nat.ofDigitChars 10 ds 0) (e := -k)
          (by simp [Parts.coefficient, hk, Nat.ofDigitChars_append])
          (by simp [Parts.exponent, hk]), hshift, zpow_natCast, zpow_neg, zpow_natCast, pow_add]
        push_cast
        field_simp
    · -- the point stands between digits
      refine ⟨⟨ds.take places.toNat, some (ds.drop places.toNat), none, ?_,
        fun c hc => hds c (List.mem_of_mem_take hc), fun c hc => hds c (List.mem_of_mem_drop hc)⟩,
        by simp [Parts.text, Parts.fractionText, Parts.powerText], fun _ => .inl rfl,
        Parts.value_eq ?_ ?_⟩
      · simp only [ne_eq, List.take_eq_nil_iff, hne, or_false]
        omega
      · simp [Parts.coefficient]
      · simp only [Parts.exponent, Option.getD_none, Option.getD_some, List.length_drop]
        omega

theorem exists_exponent {ds : List Char} (hne : ds ≠ []) (hds : ∀ c ∈ ds, c.isDigit = true)
    (places : Int) : ∃ p : Parts, p.text = exponentText ds places ∧ p.Marked ∧
      p.value = Nat.ofDigitChars 10 ds 0 * 10 ^ (places - ds.length) := by
  unfold exponentText
  split
  · exact absurd rfl hne
  · rename_i d
    exact ⟨⟨[d], none, some (places - 1), by simp, hds, by simp⟩,
      by simp [Parts.text, Parts.fractionText, Parts.powerText], .inr rfl,
      Parts.value_eq (by simp [Parts.coefficient]) (by simp [Parts.exponent])⟩
  · rename_i d rest _
    refine ⟨⟨[d], some rest, some (places - 1), by simp, fun c hc => hds c (by simp_all),
      fun c hc => hds c (List.mem_cons_of_mem _ hc)⟩,
      by simp [Parts.text, Parts.fractionText, Parts.powerText], .inl rfl,
      Parts.value_eq (by simp [Parts.coefficient]) ?_⟩
    simp only [Parts.exponent, Option.getD_some, List.length_cons]
    omega

theorem coefficient_shortest_pos {m : Nat} {q : Int} (hc : Binary64.Canonical m q) (hm : 0 < m) :
    0 < (Shortest.shortest m q).coefficient := by
  have hpow : (0 : ℚ) < 10 ^ (Shortest.shortest m q).exponent := by positivity
  have := (mul_pos_iff_of_pos_right hpow).1 ((Shortest.rounds_shortest hc hm).pos hm)
  exact_mod_cast this

/-- The text of a magnitude is a decimal number that rounds to it. -/
theorem exists_parts (hend : layout.EndsIn zeros) {m : Nat} {q : Int}
    (hc : Binary64.Canonical m q) (hm : 0 < m) :
    ∃ p : Parts, p.text = layout.magnitudeText m q ∧ (zeros.isSome → p.Marked) ∧
      Binary64.Rounds m q p.value := by
  have hrounds := Shortest.rounds_shortest hc hm
  obtain ⟨hne, hvalue⟩ := Shortest.Decimal.split_spec (coefficient_shortest_pos hc hm)
  have hds : ∀ c ∈ (Shortest.shortest m q).split.1, c.isDigit = true := fun c hc => mem_split hc
  rw [hvalue] at hrounds
  obtain ⟨p, hp, hmarked, hv⟩ := exists_positional hend hne hds (Shortest.shortest m q).split.2
  have hpositional : ∃ p : Parts, p.text =
      layout.positionalText (Shortest.shortest m q).split.1 (Shortest.shortest m q).split.2 ∧
      (zeros.isSome → p.Marked) ∧ Binary64.Rounds m q p.value := ⟨p, hp, hmarked, hv ▸ hrounds⟩
  rw [magnitudeText, if_neg hm.ne']
  dsimp only
  split
  · exact hpositional
  · split
    · exact hpositional
    · obtain ⟨p, hp, hmarked, hv⟩ := exists_exponent hne hds (Shortest.shortest m q).split.2
      exact ⟨p, hp, fun _ => hmarked, hv ▸ hrounds⟩

end RealLayout

namespace Binary64

/-- The text of a decimal number begins with a digit, so it has no sign. -/
theorem read_text (p : Parts) (negative : Bool) :
    read ((if negative then ['-'] else []) ++ p.text) =
      .ok (ofDecimal negative p.coefficient p.exponent) := by
  have hread := p.readDecimal?_text negative
  cases negative with
  | true => simp [read, hread]
  | false =>
    obtain ⟨c, rest, hcons⟩ := List.exists_cons_of_ne_nil p.whole_ne
    have hc : c.isDigit = true := p.whole_digits c (by rw [hcons]; simp)
    have htext : p.text = c :: (rest ++ (Parts.fractionText p.fraction ++ Parts.powerText p.power)) := by
      rw [Parts.text, hcons, List.cons_append]
    rw [htext] at hread ⊢
    simp [read, hread, ne_sign_of_isDigit hc]

/-- The text of a real number is a decimal number, which is read as that number. -/
theorem exists_text {layout : RealLayout} {zeros : Option (List Char)}
    (hend : layout.EndsIn zeros) {x : Binary64} {negative : Bool} {m : Nat} {q : Int}
    (h : x.shape = .finite negative m q) :
    ∃ p : Parts, layout.write x = (if negative then ['-'] else []) ++ p.text ∧
      (zeros.isSome → p.Marked) ∧ ofDecimal negative p.coefficient p.exponent = x := by
  obtain ⟨hc, hword⟩ := ofWord_of_finite h
  rw [RealLayout.write, h]
  dsimp only
  rcases Nat.eq_zero_or_pos m with rfl | hm
  · obtain ⟨hwhole, n, hn⟩ := hend
    obtain rfl : q = -1074 := by have := hc.2.2.2; omega
    have hzeros : ∀ c ∈ zeros.getD [], c.isDigit = true := by
      rw [hn]
      intro c hc
      rw [List.eq_of_mem_replicate hc]
      decide
    refine ⟨⟨['0'], zeros, none, by simp, by simp, hzeros⟩, ?_, .inl, ?_⟩
    · simp [RealLayout.magnitudeText, Parts.text, Parts.powerText, hwhole]
    · rw [← hword]
      simp [Parts.coefficient, hn, ofDecimal, Nat.ofDigitChars_cons]
  · obtain ⟨p, htext, hmarked, hrounds⟩ := RealLayout.exists_parts hend hc hm
    exact ⟨p, by rw [htext], hmarked, by rw [ofDecimal_of_rounds hc hm hrounds, hword]⟩

/-- The literal of a real number is a decimal number that shows that it is a real one. -/
theorem exists_literal {x : Binary64} {negative : Bool} {m : Nat} {q : Int}
    (h : x.shape = .finite negative m q) :
    ∃ p : Parts, RealLayout.literal.write x = (if negative then ['-'] else []) ++ p.text ∧
      p.Marked ∧ ofDecimal negative p.coefficient p.exponent = x := by
  obtain ⟨p, htext, hmarked, hvalue⟩ := exists_text RealLayout.endsIn_literal h
  exact ⟨p, htext, hmarked rfl, hvalue⟩

/-- A real number is read back from its text, in either layout. -/
theorem read_write {layout : RealLayout} {zeros : Option (List Char)} (hend : layout.EndsIn zeros)
    {x : Binary64} {negative : Bool} {m : Nat} {q : Int} (h : x.shape = .finite negative m q) :
    read (layout.write x) = .ok x := by
  obtain ⟨p, htext, -, hvalue⟩ := exists_text hend h
  rw [htext, read_text, hvalue]

/-- A real number is read back from its literal. -/
theorem read_literal {x : Binary64} {negative : Bool} {m : Nat} {q : Int}
    (h : x.shape = .finite negative m q) : read (RealLayout.literal.write x) = .ok x :=
  read_write RealLayout.endsIn_literal h

end Binary64

end SqlMaps.Number
