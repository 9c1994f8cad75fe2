import SqlMaps.Text.Case
import SqlMaps.Number.Shortest

/-! Real numbers as text: two layouts to write them in, and the reader.

Both layouts write the fewest digits that read back. The *display* layout never uses
an exponent and leaves out a point that nothing follows; the *literal* layout always
marks the number as real, with a point or an exponent. -/
namespace SqlMaps.Number

/-- How the digits of a real number are laid out. -/
structure RealLayout where
  /-- The range of digit counts before the point that are written without exponent. -/
  positional : Option Range
  /-- What a whole number ends in. -/
  wholeEnd : List Char

/-- For reading: positional at any size. -/
def RealLayout.display : RealLayout := ⟨none, []⟩

/-- For statements: positional from a ten-thousandth up to, and without, ten to the
sixteenth. -/
def RealLayout.literal : RealLayout := ⟨some ⟨-3, 16⟩, ['.', '0']⟩

namespace RealLayout

/-- The digits with a decimal point after the first `places` of them, and zeros where
there are none. -/
def positionalText (layout : RealLayout) (ds : List Char) (places : Int) : List Char :=
  if places ≤ 0 then '0' :: '.' :: List.replicate (-places).toNat '0' ++ ds
  else if ds.length ≤ places then
    ds ++ List.replicate (places.toNat - ds.length) '0' ++ layout.wholeEnd
  else ds.take places.toNat ++ '.' :: ds.drop places.toNat

/-- One digit before the point, and the power of ten. -/
def exponentText (ds : List Char) (places : Int) : List Char :=
  let power := 'e' :: Number.ofInt (places - 1)
  match ds with
  | [] => power
  | [d] => d :: power
  | d :: rest => d :: '.' :: rest ++ power

/-- The text of a finite magnitude. -/
def magnitudeText (layout : RealLayout) (m : Nat) (q : Int) : List Char :=
  if m = 0 then '0' :: layout.wholeEnd
  else
    let (ds, places) := (Shortest.shortest m q).split
    match layout.positional with
    | none => layout.positionalText ds places
    | some range =>
      if range.low ≤ places ∧ places ≤ range.high then layout.positionalText ds places
      else exponentText ds places

/-- The text of a real number. -/
def write (layout : RealLayout) (x : Binary64) : List Char :=
  match x.shape with
  | .nan => "NaN".toList
  | .infinite negative => (if negative then ['-'] else []) ++ "inf".toList
  | .finite negative m q => (if negative then ['-'] else []) ++ layout.magnitudeText m q

end RealLayout

/-- Why a text is no real number. -/
inductive RealError where
  | empty
  | badLiteral
  deriving DecidableEq

/-- The wording of an error. -/
def RealError.message : RealError → String
  | .empty => "cannot parse float from empty string"
  | .badLiteral => "invalid float literal"

namespace Binary64

/-- The number nearest to `± n * 10 ^ e`. Powers of ten beyond both ends of the range
are settled without being computed. -/
def ofDecimal (negative : Bool) (n : Nat) (e : Int) : Binary64 :=
  let places := (digits n).length + e
  if n = 0 ∨ places < -330 then ofWord negative 0
  else if places > 310 then infinity negative
  else ofFraction negative (n * pow10 e.toNat) (pow10 (-e).toNat)

/-- The exponent part of a decimal literal, or its absence. -/
def readExponent? : List Char → Option Int
  | [] => some 0
  | mark :: rest =>
    if mark = 'e' ∨ mark = 'E' then
      let (negative, ds) := match rest with
        | '-' :: ds => (true, ds)
        | '+' :: ds => (false, ds)
        | ds => (false, ds)
      if ds.isEmpty ∨ ¬ ds.all Char.isDigit then none
      else
        let n : Int := Nat.ofDigitChars 10 ds 0
        some (if negative then -n else n)
    else none

/-- Reads digits with an optional point and an optional exponent. -/
def readDecimal? (negative : Bool) (s : List Char) : Option Binary64 :=
  let whole := s.takeWhile Char.isDigit
  let rest := s.dropWhile Char.isDigit
  let (part, rest) := match rest with
    | '.' :: rest => (rest.takeWhile Char.isDigit, rest.dropWhile Char.isDigit)
    | rest => ([], rest)
  if whole.isEmpty ∧ part.isEmpty then none
  else (readExponent? rest).map fun e =>
    ofDecimal negative (Nat.ofDigitChars 10 (whole ++ part) 0) (e - part.length)

/-- Reads a real number: an optional sign, and a decimal literal, `inf`, `infinity` or
`nan`, the words in any letter case. -/
def read (s : List Char) : Except RealError Binary64 :=
  if s.isEmpty then .error .empty
  else
    let (negative, body) := match s with
      | '-' :: rest => (true, rest)
      | '+' :: rest => (false, rest)
      | s => (false, s)
    match readDecimal? negative body with
    | some x => .ok x
    | none =>
      let word := Text.lowercase body
      if word = "inf".toList ∨ word = "infinity".toList then .ok (infinity negative)
      else if word = "nan".toList then .ok nan
      else .error .badLiteral

/-- The text for reading. -/
def displayText (x : Binary64) : String :=
  String.ofList (RealLayout.display.write x)

/-- The text that marks the number as real. -/
def literalText (x : Binary64) : String :=
  String.ofList (RealLayout.literal.write x)

end Binary64

end SqlMaps.Number
