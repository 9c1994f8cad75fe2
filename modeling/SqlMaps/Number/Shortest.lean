import SqlMaps.Number.Integer
import SqlMaps.Number.Binary64

/-! The fewest decimal digits that read back as the same real number.

Every real number of an interval around a word rounds to that word. For one, two,
three … digits, `shortest` takes the two neighbours of the word on that decimal grid
and asks whether one lies in the interval; the first grid with a hit gives the
digits, of two hits the nearer one, and of two equally near ones the greater. -/
namespace SqlMaps.Number.Shortest

/-- A decimal number `c * 10 ^ e`. -/
structure Decimal where
  coefficient : Nat
  exponent : Int
  deriving DecidableEq

/-- The numbers that round to `m * 2 ^ q`, as quarters of `2 ^ q`: the word, and the
two ends of its interval. Below a power of two the next word is only half as far. -/
structure Interval where
  low : Nat
  value : Nat
  high : Nat
  /-- Whether the ends round to the word too. -/
  closed : Bool

/-- The interval of a word. -/
def interval (m : Nat) (q : Int) : Interval where
  low := if m = pow2 52 ∧ q > -1074 then 4 * m - 1 else 4 * m - 2
  value := 4 * m
  high := 4 * m + 2
  closed := m % 2 == 0

/-- How many decimal digits stand before the point of `n / d`, negative when zeros
follow the point. -/
def magnitude (n d : Nat) : Int :=
  let e : Int := ((digits n).length : Int) - (digits d).length
  if n * pow10 (-e).toNat < d * pow10 e.toNat then e else e + 1

/-- The best number of the grid `10 ^ k` inside the interval, all in units of `1 / d`. -/
def nearest? (i : Interval) (unit d : Nat) (k : Int) : Option Decimal :=
  let scale := unit * pow10 (-k).toNat
  let d := d * pow10 k.toNat
  let c := i.value * scale / d
  let inside (c : Nat) : Bool :=
    if i.closed then i.low * scale ≤ c * d && c * d ≤ i.high * scale
    else i.low * scale < c * d && c * d < i.high * scale
  let below := i.value * scale - c * d
  let above := (c + 1) * d - i.value * scale
  match inside c, inside (c + 1) with
  | true, true => some ⟨if below < above then c else c + 1, k⟩
  | true, false => some ⟨c, k⟩
  | false, true => some ⟨c + 1, k⟩
  | false, false => none

/-- Seventeen digits tell any two words apart, so the search ends by then. -/
def mostDigits : Nat := 17

/-- The shortest decimal number that rounds to `m * 2 ^ q`, for a positive `m`. -/
def shortest (m : Nat) (q : Int) : Decimal :=
  let i := interval m q
  let unit := pow2 (q - 2).toNat
  let d := pow2 (2 - q).toNat
  let places := magnitude (i.value * unit) d
  let found := (List.range mostDigits).findSome? fun n : Nat => nearest? i unit d (places - (n + 1))
  found.getD ⟨i.value * unit / d, 0⟩

/-- The digits of a decimal number without zeros at their end, and how many of them
stand before the point. -/
def Decimal.split (x : Decimal) : List Char × Int :=
  let all := digits x.coefficient
  ((all.reverse.dropWhile (· == '0')).reverse, all.length + x.exponent)

end SqlMaps.Number.Shortest
