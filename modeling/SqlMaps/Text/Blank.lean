/-! White space, and text with the white space at its ends removed.

One table says which characters are white space, and every reader of the library
that skips or trims uses it: the template scanner, the number and timestamp
readers, the statement check and the command line. The set is the `White_Space`
property of the character database, so it holds no-break and ideographic spaces,
and not the zero-width ones. Trimming leaves a text with no white space at either
end (`trim_head`, `trim_last`) and removes nothing else (`trim_of_ends`). -/
namespace SqlMaps.Text

/-- The white-space characters. -/
def isBlank (c : Char) : Bool :=
  let n := c.toNat
  (0x09 ≤ n && n ≤ 0x0D) || n == 0x20 || n == 0x85 || n == 0xA0 || n == 0x1680 ||
    (0x2000 ≤ n && n ≤ 0x200A) || n == 0x2028 || n == 0x2029 || n == 0x202F || n == 0x205F ||
    n == 0x3000

/-- The white-space characters of ASCII, which numbers in a store may have around them. -/
def isAsciiBlank (c : Char) : Bool :=
  c == ' ' || ('\t' ≤ c && c ≤ '\r')

/-- The text without the white space of ASCII at its ends. -/
def trimAscii (s : List Char) : List Char :=
  ((s.dropWhile isAsciiBlank).reverse.dropWhile isAsciiBlank).reverse

/-- The text without its leading white space. -/
def trimStart (s : List Char) : List Char :=
  s.dropWhile isBlank

/-- The text without its trailing white space. -/
def trimEnd (s : List Char) : List Char :=
  (s.reverse.dropWhile isBlank).reverse

/-- The text without the white space at its ends. -/
def trim (s : List Char) : List Char :=
  trimEnd (trimStart s)

/-- `trim` on strings. -/
def trimmed (s : String) : String :=
  String.ofList (trim s.toList)

/-- Whether the text is nothing but white space. -/
def allBlank (s : List Char) : Bool :=
  s.all isBlank

theorem trimStart_head (s : List Char) : ∀ c ∈ (trimStart s).head?, isBlank c = false := by
  intro c hc
  have hstop := List.head?_dropWhile_not isBlank s
  rw [← trimStart, Option.mem_def.1 hc] at hstop
  simpa using hstop

theorem trim_last (s : List Char) : ∀ c ∈ (trim s).getLast?, isBlank c = false := by
  have hend : (trim s).getLast? = (trimStart (trimStart s).reverse).head? := List.getLast?_reverse
  rw [hend]
  exact trimStart_head _

theorem trimEnd_of_last {s : List Char} (h : ∀ c ∈ s.getLast?, isBlank c = false) :
    trimEnd s = s := by
  rw [trimEnd]
  have hr : s.reverse.dropWhile isBlank = s.reverse := by
    cases hs : s.reverse with
    | nil => rfl
    | cons a r =>
      have ha : isBlank a = false := h a (by simp [← List.head?_reverse, hs])
      simp [ha]
  rw [hr, List.reverse_reverse]

/-- A text that begins and ends with something else than white space is left alone. -/
theorem trim_of_ends {s : List Char} (hh : ∀ c ∈ s.head?, isBlank c = false)
    (hl : ∀ c ∈ s.getLast?, isBlank c = false) : trim s = s := by
  have hs : trimStart s = s := by
    cases s with
    | nil => rfl
    | cons a r => simp [trimStart, hh a (by simp)]
  rw [trim, hs, trimEnd_of_last hl]

end SqlMaps.Text
