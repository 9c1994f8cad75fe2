/-! Dates and times of day without a zone.

Dates follow the Gregorian calendar in both directions, with a year zero. A fraction
may be one second or more, but less than two. Behind second 59 that is a leap second,
the sixtieth second of a minute; any other second can bear such a fraction too. Only
existing dates and times can be built. -/
namespace SqlMaps.Calendar

/-- Whether the year has a 29th of February. -/
def isLeapYear (year : Int) : Bool :=
  (year % 4 == 0 && year % 100 != 0) || year % 400 == 0

/-- How many days the month has. -/
def daysIn (year : Int) (month : Nat) : Nat :=
  if month = 2 then (if isLeapYear year then 29 else 28)
  else if month = 4 ∨ month = 6 ∨ month = 9 ∨ month = 11 then 30
  else 31

/-- A year, month and day that name a day. -/
def IsDate (year : Int) (month day : Nat) : Prop :=
  (-262143 ≤ year ∧ year ≤ 262142) ∧ (1 ≤ month ∧ month ≤ 12) ∧ 1 ≤ day ∧ day ≤ daysIn year month

instance (year : Int) (month day : Nat) : Decidable (IsDate year month day) := by
  unfold IsDate; infer_instance

/-- A day of the calendar. -/
structure Date where
  year : Int
  month : Nat
  day : Nat
  exists_day : IsDate year month day
  deriving DecidableEq

/-- Billionths of a second in a second. -/
def nanosPerSecond : Nat := 1000000000

/-- An hour, minute, second and fraction that name a time of day. -/
def IsTime (hour minute second nano : Nat) : Prop :=
  hour < 24 ∧ minute < 60 ∧ second < 60 ∧ nano < 2 * nanosPerSecond

instance (hour minute second nano : Nat) : Decidable (IsTime hour minute second nano) := by
  unfold IsTime; infer_instance

/-- A time of day. -/
structure Time where
  hour : Nat
  minute : Nat
  second : Nat
  nano : Nat
  exists_time : IsTime hour minute second nano
  deriving DecidableEq

/-- A day and a time of day. -/
structure Timestamp where
  date : Date
  time : Time
  deriving DecidableEq

/-- The day with these numbers, if there is one. -/
def Date.of? (year : Int) (month day : Nat) : Option Date :=
  if h : IsDate year month day then some ⟨year, month, day, h⟩ else none

/-- The time with these numbers, if there is one. -/
def Time.of? (hour minute second nano : Nat) : Option Time :=
  if h : IsTime hour minute second nano then some ⟨hour, minute, second, nano, h⟩ else none

/-- The time whose second may be the sixtieth, a leap second, without a fraction. -/
def Time.ofClock? (hour minute second : Nat) : Option Time :=
  if second = 60 then Time.of? hour minute 59 nanosPerSecond else Time.of? hour minute second 0

/-- The second a clock shows: 60 in a leap second, and the next one where the fraction is a
second or more elsewhere. -/
def Time.clockSecond (t : Time) : Nat :=
  t.second + t.nano / nanosPerSecond

theorem daysIn_le (year : Int) (month : Nat) : daysIn year month ≤ 31 := by
  unfold daysIn
  split
  · split <;> omega
  · split <;> omega

end SqlMaps.Calendar
