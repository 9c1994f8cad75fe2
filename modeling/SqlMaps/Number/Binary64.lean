import SqlMaps.Number.Power

/-! Real numbers of 64 bits: what a word denotes, and the word nearest to a fraction.

A word holds a sign bit, eleven bits of exponent and 52 bits of fraction. `shape`
says what it denotes: no number, an infinity, or a signed product of a natural
number and a power of two. `roundFraction` is the other direction: the word nearest
to a fraction, a tie going to the even one. Everything is arithmetic on natural
numbers. -/
namespace SqlMaps.Number

/-- A real number of 64 bits. -/
structure Binary64 where
  bits : UInt64
  deriving DecidableEq, Inhabited

namespace Binary64

/-- What a word denotes. -/
inductive Shape where
  | nan
  | infinite (negative : Bool)
  /-- The number `± m * 2 ^ q`. -/
  | finite (negative : Bool) (m : Nat) (q : Int)
  deriving DecidableEq

/-- The sign bit. -/
def negative (x : Binary64) : Bool :=
  decide (pow2 63 ≤ x.bits.toNat)

/-- The eleven bits of exponent. -/
def field (x : Binary64) : Nat :=
  x.bits.toNat / pow2 52 % pow2 11

/-- The 52 bits of fraction. -/
def fraction (x : Binary64) : Nat :=
  x.bits.toNat % pow2 52

/-- What the word denotes. The exponents at the two ends are special: the least
one leaves out the leading bit, the greatest one marks infinities and non-numbers. -/
def shape (x : Binary64) : Shape :=
  if x.field = 2047 then
    if x.fraction = 0 then .infinite x.negative else .nan
  else if x.field = 0 then .finite x.negative x.fraction (-1074)
  else .finite x.negative (pow2 52 + x.fraction) (x.field - 1075)

/-- The word with the given sign and magnitude bits. -/
def ofWord (negative : Bool) (word : Nat) : Binary64 :=
  ⟨UInt64.ofNat ((if negative then pow2 63 else 0) + word)⟩

/-- The magnitude bits of an infinity. -/
def infiniteWord : Nat := 2047 * pow2 52

/-- An infinity. -/
def infinity (negative : Bool) : Binary64 :=
  ofWord negative infiniteWord

/-- The value that is no number. -/
def nan : Binary64 :=
  ofWord false (infiniteWord + pow2 51)

/-- The number nearest to `n / d`, a tie going to the even one. -/
def roundHalfEven (n d : Nat) : Nat :=
  let k := n / d
  let r := n % d
  if 2 * r > d ∨ (2 * r = d ∧ k % 2 = 1) then k + 1 else k

/-- The exponent of the greatest power of two that is at most `n / d`. -/
def binaryExponent (n d : Nat) : Int :=
  let e : Int := (n.log2 : Int) - d.log2
  if n * pow2 (-e).toNat < d * pow2 e.toNat then e - 1 else e

/-- The magnitude bits nearest to the fraction `n / d`; past the greatest number
they are those of an infinity. -/
def roundFraction (n d : Nat) : Nat :=
  if n = 0 then 0
  else
    let q := max (binaryExponent n d - 52) (-1074)
    let m := roundHalfEven (n * pow2 (-q).toNat) (d * pow2 q.toNat)
    min ((q + 1074).toNat * pow2 52 + m) infiniteWord

/-- The number nearest to `± n / d`. -/
def ofFraction (negative : Bool) (n d : Nat) : Binary64 :=
  ofWord negative (roundFraction n d)

/-- The number nearest to a whole number. -/
def ofInt (i : Int) : Binary64 :=
  ofFraction (decide (i < 0)) i.natAbs 1

/-- Whether the word is no number. -/
def isNan (x : Binary64) : Bool :=
  x.shape matches .nan

/-- Equality of the numbers denoted: the two zeros are equal, and what is no number
equals nothing. -/
def equals (x y : Binary64) : Bool :=
  match x.shape, y.shape with
  | .nan, _ | _, .nan => false
  | .finite _ 0 _, .finite _ 0 _ => true
  | _, _ => x.bits == y.bits

/-- The whole number that the word denotes, if it denotes one. -/
def toInt? (x : Binary64) : Option Int :=
  match x.shape with
  | .finite negative m q =>
    let scale := pow2 (-q).toNat
    if m % scale = 0 then
      let n : Int := (m / scale * pow2 q.toNat : Nat)
      some (if negative then -n else n)
    else none
  | _ => none

end Binary64

end SqlMaps.Number
