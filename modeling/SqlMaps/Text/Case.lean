/-! Letter case of ASCII letters: what keywords and mode names are compared by. -/
namespace SqlMaps.Text

/-- The text with `A` to `Z` made small; other characters are left alone. -/
def lowercase (s : List Char) : List Char :=
  s.map Char.toLower

/-- Whether two texts differ at most in the case of ASCII letters. -/
def sameLetters (s t : List Char) : Bool :=
  lowercase s == lowercase t

/-- Whether the text begins with the keyword, in any letter case. -/
def startsWithKeyword (keyword s : List Char) : Bool :=
  sameLetters (s.take keyword.length) keyword

/-- What is no capital letter stays as it is. -/
theorem toLower_of_not_capital {c : Char} (h : ¬ ('A' ≤ c ∧ c ≤ 'Z')) : c.toLower = c :=
  dif_neg h

end SqlMaps.Text
