import SqlMaps.Text.Hex

/-! Whole numbers as text: the digits of a number, and readers that say why a text
is no number of a range.

A reader goes from left to right and stops at the first character that decides:
one that is no digit, or a digit with which the number leaves the range. -/
namespace SqlMaps.Number

/-- The decimal digits of a natural number. -/
def digits (n : Nat) : List Char :=
  Nat.toDigits 10 n

/-- The decimal text of a whole number, with a minus sign when it is negative. -/
def ofInt : Int → List Char
  | .ofNat n => digits n
  | .negSucc n => '-' :: digits (n + 1)

/-- `ofInt` as a string. -/
def intText (i : Int) : String :=
  String.ofList (ofInt i)

/-- Why a text is no whole number of the wanted range. -/
inductive IntegerError where
  | empty
  | badDigit
  | tooLarge
  | tooSmall
  deriving DecidableEq

/-- The wording of an error. -/
def IntegerError.message : IntegerError → String
  | .empty => "cannot parse integer from empty string"
  | .badDigit => "invalid digit found in string"
  | .tooLarge => "number too large to fit in target type"
  | .tooSmall => "number too small to fit in target type"

/-- A range of whole numbers, both ends included. -/
structure Range where
  low : Int
  high : Int

namespace Range

/-- The number itself when it is in the range. -/
def check (range : Range) (n : Int) : Except IntegerError Int :=
  if n > range.high then .error .tooLarge
  else if n < range.low then .error .tooSmall
  else .ok n

/-- The bytes. -/
def byte : Range := ⟨0, 255⟩
/-- Signed numbers of 32 bits. -/
def int32 : Range := ⟨-2147483648, 2147483647⟩
/-- Signed numbers of 64 bits. -/
def int64 : Range := ⟨-9223372036854775808, 9223372036854775807⟩
/-- Unsigned numbers of 32 bits. -/
def nat32 : Range := ⟨0, 4294967295⟩
/-- Unsigned numbers of 64 bits. -/
def nat64 : Range := ⟨0, 18446744073709551615⟩

/-- The value of a digit of the base. -/
def digit? (base : Nat) (c : Char) : Option Nat :=
  (Text.Hex.digit? c).filter (· < base)

/-- Reads digits on, each counting for or against (`sign`), after a number read so far. -/
def readDigits (range : Range) (base : Nat) (sign : Int) :
    List Char → Int → Except IntegerError Int
  | [], n => .ok n
  | c :: rest, n =>
    match digit? base c with
    | none => .error .badDigit
    | some d => do
      let m ← range.check (n * base + sign * d)
      range.readDigits base sign rest m

/-- Reads a whole number of the range, with an optional sign. A sign alone has no
digit, and a minus sign is no digit where nothing is negative. -/
def read (range : Range) (base : Nat) (s : List Char) : Except IntegerError Int :=
  match s with
  | [] => .error .empty
  | ['+'] => .error .badDigit
  | ['-'] => .error .badDigit
  | '+' :: rest => range.readDigits base 1 rest 0
  | '-' :: rest =>
    if range.low < 0 then range.readDigits base (-1) rest 0 else .error .badDigit
  | s => range.readDigits base 1 s 0

end Range

end SqlMaps.Number
