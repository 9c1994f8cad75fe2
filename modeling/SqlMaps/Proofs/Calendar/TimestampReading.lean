import SqlMaps.Proofs.Markup.Grammar
import SqlMaps.Proofs.Value.BeanReading

/-! Timestamps are read back from their text.

The writer pads every field, puts a sign in front of a year outside 0 to 9999 and shows a leap
second as second sixty. Each step of the reader takes the field that was written, whatever comes
behind it: two digits are a full field (`readField_padded`), a plain year has four, and one with a
sign ends at the dash (`readYear_yearText`). So the reader gives back what a clock shows
(`read_write`), and that is what comes out of a column or a field of a bean for a bound timestamp
(`readColumn_timestampText`). It is the timestamp without its fraction of a second, unless the
fraction is a second or more and not that of a leap second: then the next second is shown. -/
namespace SqlMaps.Calendar

/-- The time without its fraction of a second. A leap second stays one. -/
def Time.withoutFraction (t : Time) : Time where
  hour := t.hour
  minute := t.minute
  second := t.second
  nano := if t.nano < nanosPerSecond then 0 else nanosPerSecond
  exists_time := by
    obtain ⟨hhour, hminute, hsecond, -⟩ := t.exists_time
    refine ⟨hhour, hminute, hsecond, ?_⟩
    split <;> decide

/-- The timestamp without its fraction of a second. -/
def Timestamp.withoutFraction (t : Timestamp) : Timestamp :=
  ⟨t.date, t.time.withoutFraction⟩

/-- Whether the next second is shown for the time: its fraction is a second or more, and there is
a next second in the minute. -/
def Time.Carries (t : Time) : Prop :=
  ¬ t.nano < nanosPerSecond ∧ t.second ≠ 59

instance (t : Time) : Decidable t.Carries := by
  unfold Time.Carries; infer_instance

/-- The time that a clock shows: the next second where the fraction carries, and else the time
without its fraction. -/
def Time.onClock (t : Time) : Time :=
  if h : t.Carries then
    { hour := t.hour
      minute := t.minute
      second := t.second + 1
      nano := 0
      exists_time := by
        obtain ⟨hhour, hminute, hsecond, -⟩ := t.exists_time
        exact ⟨hhour, hminute, by have := h.2; omega, by decide⟩ }
  else t.withoutFraction

/-- The timestamp that a clock shows. -/
def Timestamp.onClock (t : Timestamp) : Timestamp :=
  ⟨t.date, t.time.onClock⟩

theorem Time.clockSecond_of_fraction {t : Time} (h : t.nano < nanosPerSecond) :
    t.clockSecond = t.second := by
  rw [clockSecond, Nat.div_eq_of_lt h, Nat.add_zero]

theorem Time.clockSecond_of_whole {t : Time} (h : ¬ t.nano < nanosPerSecond) :
    t.clockSecond = t.second + 1 := by
  obtain ⟨-, -, -, hless⟩ := t.exists_time
  have hwhole : t.nano / nanosPerSecond = 1 :=
    Nat.div_eq_of_lt_le (by simpa using h) (by simpa using hless)
  rw [clockSecond, hwhole]

theorem Time.clockSecond_le (t : Time) : t.clockSecond ≤ 60 := by
  have hsecond := t.exists_time.2.2.1
  by_cases h : t.nano < nanosPerSecond
  · rw [clockSecond_of_fraction h]
    exact hsecond.le
  · rw [clockSecond_of_whole h]
    exact hsecond

theorem Time.of?_self (t : Time) : of? t.hour t.minute t.second t.nano = some t :=
  dif_pos t.exists_time

/-- The second that a clock shows tells the time that it shows. -/
theorem Time.ofClock?_clockSecond (t : Time) :
    ofClock? t.hour t.minute t.clockSecond = some t.onClock := by
  have hsecond := t.exists_time.2.2.1
  have hself := of?_self t.onClock
  rw [onClock] at hself ⊢
  split at hself
  · next hcarries =>
    rw [ofClock?, clockSecond_of_whole hcarries.1, if_neg (by have := hcarries.2; omega),
      dif_pos hcarries]
    exact hself
  · next hcarries =>
    rw [dif_neg hcarries]
    by_cases h : t.nano < nanosPerSecond
    · have hnano : t.withoutFraction.nano = 0 := if_pos h
      rw [hnano] at hself
      rw [ofClock?, clockSecond_of_fraction h, if_neg (by omega)]
      exact hself
    · have hlast : t.second = 59 := not_not.1 fun hne => hcarries ⟨h, hne⟩
      have hnano : t.withoutFraction.nano = nanosPerSecond := if_neg h
      have hleap : t.withoutFraction.second = 59 := hlast
      rw [hnano, hleap] at hself
      rw [ofClock?, clockSecond_of_whole h, hlast, if_pos rfl]
      exact hself

theorem Date.of?_self (d : Date) : of? d.year d.month d.day = some d :=
  dif_pos d.exists_day

/-! ### Padded numbers -/

theorem padded_ne_nil (width n : Nat) : padded width n ≠ [] := by
  simp [padded, Number.digits, Nat.toDigits_ne_nil]

theorem isBlank_of_mem_padded {width n : Nat} {c : Char} (h : c ∈ padded width n) :
    Text.isBlank c = false :=
  Number.isBlank_of_isNumberChar (Number.isNumberChar_of_isDigit (mem_padded h))

theorem length_padded {width n : Nat} (hwidth : 0 < width) (hn : n < 10 ^ width) :
    (padded width n).length = width := by
  have hle : (Number.digits n).length ≤ width := Nat.toDigits_length 10 n width hwidth hn
  simp [padded]
  omega

theorem ofDigitChars_padded (width n : Nat) : Nat.ofDigitChars 10 (padded width n) 0 = n := by
  rw [padded, Nat.ofDigitChars_append, Nat.ofDigitChars_replicate_zero, Nat.mul_zero]
  exact Nat.ofDigitChars_ten_toDigits

namespace Timestamp

/-! ### Steps of the reader -/

section
variable {α β : Type} {s rest : List Char}

theorem bind_ok {step : Reader α} {a : α} (h : step s = .ok (a, rest)) (next : α → Reader β) :
    (step >>= next) s = next a rest := by
  show (step s >>= fun p => next p.1 p.2) = _
  rw [h]
  rfl

theorem skipBlanks_of_head (h : ∀ c ∈ s.head?, Text.isBlank c = false) :
    skipBlanks s = .ok ((), s) := by
  show Except.ok ((), Text.trimStart s) = _
  rw [Text.trimStart_of_head h]

theorem get_ok (s : List Char) : (get : Reader (List Char)) s = .ok (s, s) :=
  rfl

theorem set_ok (s rest : List Char) : (set rest : Reader PUnit) s = .ok ((), rest) :=
  rfl

theorem readMark_cons (mark : Char) (rest : List Char) :
    readMark mark (mark :: rest) = .ok ((), rest) := by
  rw [readMark, bind_ok (get_ok _)]
  dsimp only
  rw [if_pos rfl]
  rfl

theorem readDigits_of_taken {width : Nat} {ds : List Char}
    (htaken : ((ds ++ rest).take width).takeWhile Char.isDigit = ds) (hne : ds ≠ [])
    (hrange : (Nat.ofDigitChars 10 ds 0 : Int) ≤ Number.Range.int64.high) :
    readDigits width (ds ++ rest) = .ok (Nat.ofDigitChars 10 ds 0, rest) := by
  have hempty : ¬ ds.isEmpty = true := by simpa using hne
  rw [readDigits, bind_ok (get_ok _)]
  dsimp only
  rw [htaken, if_neg hempty, if_neg (not_lt.2 hrange), List.drop_left, bind_ok (set_ok _ _)]
  rfl

/-- Digits of the full width are read, whatever follows. -/
theorem readDigits_padded (width n : Nat) (hwidth : 0 < width) (hn : n < 10 ^ width)
    (hrange : (n : Int) ≤ Number.Range.int64.high) (rest : List Char) :
    readDigits width (padded width n ++ rest) = .ok (n, rest) := by
  have hvalue := ofDigitChars_padded width n
  have htaken : ((padded width n ++ rest).take width).takeWhile Char.isDigit = padded width n := by
    have htake : (padded width n ++ rest).take (padded width n).length = padded width n :=
      List.take_left
    rw [length_padded hwidth hn] at htake
    rw [htake]
    exact List.takeWhile_eq_self_iff.2 fun c hc => mem_padded hc
  have := readDigits_of_taken htaken (padded_ne_nil width n) (by rwa [hvalue])
  rwa [hvalue] at this

/-- Behind a sign digits are read up to the first character that is none. -/
theorem readDigits_all (width : Nat) {n : Nat} (hrange : (n : Int) ≤ Number.Range.int64.high)
    {rest : List Char} (hrest : ∀ c ∈ rest.head?, c.isDigit = false) :
    readDigits (padded width n ++ rest).length (padded width n ++ rest) = .ok (n, rest) := by
  have hvalue := ofDigitChars_padded width n
  have htaken : ((padded width n ++ rest).take (padded width n ++ rest).length).takeWhile
      Char.isDigit = padded width n := by
    rw [List.take_length]
    exact (Number.takeWhile_stop (fun c hc => mem_padded hc) hrest).1
  have := readDigits_of_taken htaken (padded_ne_nil width n) (by rwa [hvalue])
  rwa [hvalue] at this

theorem skipBlanks_padded (width n : Nat) (rest : List Char) :
    skipBlanks (padded width n ++ rest) = .ok ((), padded width n ++ rest) := by
  refine skipBlanks_of_head fun c hc => ?_
  rw [List.head?_append_of_ne_nil _ (padded_ne_nil width n)] at hc
  exact isBlank_of_mem_padded (List.mem_of_mem_head? hc)

/-- A field of two digits is read back. -/
theorem readField_padded {low high n : Nat} (hlow : low ≤ n) (hhigh : n ≤ high) (hn : n < 100)
    (rest : List Char) : readField low high (padded 2 n ++ rest) = .ok (n, rest) := by
  have hrange : (n : Int) ≤ Number.Range.int64.high := by
    simp only [Number.Range.int64]
    omega
  rw [readField, bind_ok (skipBlanks_padded 2 n rest),
    bind_ok (readDigits_padded 2 n (by decide) hn hrange rest), if_pos ⟨hlow, hhigh⟩]
  rfl

section
variable {n : Nat}

theorem readYear_minus (h : readDigits s.length s = .ok (n, rest))
    (hlow : Number.Range.int32.low ≤ -(n : Int)) (hhigh : -(n : Int) ≤ Number.Range.int32.high) :
    readYear ('-' :: s) = .ok (-(n : Int), rest) := by
  have hdigits := bind_ok h fun n =>
    if Number.Range.int32.low ≤ -(n : Int) ∧ -(n : Int) ≤ Number.Range.int32.high
    then (return -(n : Int) : Reader Int) else throw .outOfRange
  rw [if_pos ⟨hlow, hhigh⟩] at hdigits
  exact hdigits

theorem readYear_plus (h : readDigits s.length s = .ok (n, rest))
    (hlow : Number.Range.int32.low ≤ (n : Int)) (hhigh : (n : Int) ≤ Number.Range.int32.high) :
    readYear ('+' :: s) = .ok ((n : Int), rest) := by
  have hdigits := bind_ok h fun n =>
    if Number.Range.int32.low ≤ (n : Int) ∧ (n : Int) ≤ Number.Range.int32.high
    then (return (n : Int) : Reader Int) else throw .outOfRange
  rw [if_pos ⟨hlow, hhigh⟩] at hdigits
  exact hdigits

theorem readYear_plain (hskip : skipBlanks s = .ok ((), s))
    (hsign : ∀ c ∈ s.head?, c ≠ '-' ∧ c ≠ '+') (h : readDigits 4 s = .ok (n, rest))
    (hlow : Number.Range.int32.low ≤ (n : Int)) (hhigh : (n : Int) ≤ Number.Range.int32.high) :
    readYear s = .ok ((n : Int), rest) := by
  rw [readYear, bind_ok hskip, bind_ok (get_ok _)]
  dsimp only
  split
  · exact absurd rfl (hsign _ rfl).1
  · exact absurd rfl (hsign _ rfl).2
  · rw [bind_ok h, pure_bind, if_pos ⟨hlow, hhigh⟩]
    rfl

end

/-- A year is read back, with a sign or without. -/
theorem readYear_yearText {year : Int} (hlow : Number.Range.int32.low ≤ year)
    (hhigh : year ≤ Number.Range.int32.high) {rest : List Char}
    (hrest : ∀ c ∈ rest.head?, c.isDigit = false) :
    readYear (yearText year ++ rest) = .ok (year, rest) := by
  have hrange : (year.natAbs : Int) ≤ Number.Range.int64.high := by
    simp only [Number.Range.int32, Number.Range.int64] at *
    omega
  rw [yearText]
  split
  · next hplain =>
    have hnat : ((year.toNat : Nat) : Int) = year := Int.toNat_of_nonneg hplain.1
    have hdigits := readDigits_padded 4 year.toNat (by decide) (by omega)
      (by omega) rest
    have hsign : ∀ c ∈ (padded 4 year.toNat ++ rest).head?, c ≠ '-' ∧ c ≠ '+' := by
      intro c hc
      rw [List.head?_append_of_ne_nil _ (padded_ne_nil 4 _)] at hc
      exact Number.ne_sign_of_isDigit (mem_padded (List.mem_of_mem_head? hc))
    have := readYear_plain (skipBlanks_padded _ _ _) hsign hdigits (by omega) (by omega)
    rwa [hnat] at this
  · have hdigits := readDigits_all 4 hrange hrest
    split
    · have := readYear_minus hdigits (by omega) (by omega)
      rwa [show -(year.natAbs : Int) = year by omega] at this
    · have := readYear_plus hdigits (by omega) (by omega)
      rwa [show (year.natAbs : Int) = year by omega] at this

end

/-! ### Whole timestamps -/

theorem skipBlanks_space (width n : Nat) (rest : List Char) :
    skipBlanks (' ' :: (padded width n ++ rest)) = .ok ((), padded width n ++ rest) :=
  skipBlanks_padded width n rest

/-- What is written is read back as the clock shows it. -/
theorem read_write (t : Timestamp) : read t.write = .ok t.onClock := by
  obtain ⟨⟨hyearLow, hyearHigh⟩, ⟨hmonthLow, hmonthHigh⟩, hdayLow, hdayHigh⟩ := t.date.exists_day
  have hday := hdayHigh.trans (daysIn_le _ _)
  have hhour : t.time.hour ≤ 23 := Nat.le_of_lt_succ t.time.exists_time.1
  have hminute : t.time.minute ≤ 59 := Nat.le_of_lt_succ t.time.exists_time.2.1
  have hsecond := t.time.clockSecond_le
  have hlast := readField_padded (Nat.zero_le t.time.clockSecond) hsecond (by omega) []
  rw [List.append_nil] at hlast
  have hreader : reader t.write = .ok (t.onClock, []) := by
    simp only [write, List.append_assoc, List.cons_append]
    rw [reader, bind_ok (readYear_yearText (by simp only [Number.Range.int32]; omega)
        (by simp only [Number.Range.int32]; omega) (by simp)),
      bind_ok (readMark_cons _ _), bind_ok (readField_padded hmonthLow hmonthHigh (by omega) _),
      bind_ok (readMark_cons _ _), bind_ok (readField_padded hdayLow hday (by omega) _),
      bind_ok (skipBlanks_space _ _ _),
      bind_ok (readField_padded (Nat.zero_le _) hhour (by omega) _),
      bind_ok (readMark_cons _ _), bind_ok (readField_padded (Nat.zero_le _) hminute (by omega) _),
      bind_ok (readMark_cons _ _), bind_ok hlast, bind_ok (get_ok _)]
    dsimp only
    rw [if_pos List.isEmpty_nil, Date.of?_self, Time.ofClock?_clockSecond]
    rfl
  show Prod.fst <$> reader t.write = _
  rw [hreader]
  rfl

end Timestamp

end SqlMaps.Calendar

namespace SqlMaps.FieldType
open Calendar

/-- A leap second is written as second sixty, and a year below zero with its sign. -/
example : (Value.timestamp
      ⟨⟨-1, 2, 28, by decide⟩, ⟨23, 59, 59, 1999999999, by decide⟩⟩).bound =
    .text "-0001-02-28 23:59:60" := by
  decide +kernel

end SqlMaps.FieldType
