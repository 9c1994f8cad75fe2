/-! Bytes written as pairs of hexadecimal digits.

`ofBytes` writes two digits a byte, in the digits of the given case; `bytes?` reads
such pairs in either case and refuses anything else. -/
namespace SqlMaps.Text.Hex

/-- The sixteen digits, with small letters. -/
def smallDigits : List Char := "0123456789abcdef".toList

/-- The sixteen digits, with capital letters. -/
def capitalDigits : List Char := "0123456789ABCDEF".toList

/-- The value of a hexadecimal digit of either case. -/
def digit? (c : Char) : Option Nat :=
  if '0' ≤ c ∧ c ≤ '9' then some (c.toNat - '0'.toNat)
  else if 'a' ≤ c ∧ c ≤ 'f' then some (c.toNat - 'a'.toNat + 10)
  else if 'A' ≤ c ∧ c ≤ 'F' then some (c.toNat - 'A'.toNat + 10)
  else none

/-- The two digits of a byte. -/
def ofByte (digits : List Char) (b : UInt8) : List Char :=
  [digits.getD (b.toNat / 16) '0', digits.getD (b.toNat % 16) '0']

/-- Every byte as two digits. -/
def ofBytes (digits : List Char) (bytes : List UInt8) : List Char :=
  bytes.flatMap (ofByte digits)

/-- The byte that two digits denote. -/
def byte? (high low : Char) : Option UInt8 := do
  return UInt8.ofNat ((← digit? high) * 16 + (← digit? low))

/-- The bytes that a text of digit pairs denotes. -/
def bytes? : List Char → Option (List UInt8)
  | [] => some []
  | [_] => none
  | high :: low :: rest => do return (← byte? high low) :: (← bytes? rest)

/-- The value of a run of hexadecimal digits, most significant first. -/
def value? (s : List Char) : Option Nat :=
  s.foldl (fun n c => do return (← n) * 16 + (← digit? c)) (some 0)

/-- Bytes are read back from digits of either case. -/
theorem bytes?_ofBytes {digits : List Char} (hdigits : digits = smallDigits ∨ digits = capitalDigits)
    (bytes : List UInt8) : bytes? (ofBytes digits bytes) = some bytes := by
  have hb : ∀ b : UInt8, ∃ h l, ofByte digits b = [h, l] ∧ byte? h l = some b := by
    intro b
    refine ⟨_, _, rfl, ?_⟩
    have hall : ∀ ds ∈ [smallDigits, capitalDigits], ∀ n : Fin 256,
        byte? (ds.getD (n.val / 16) '0') (ds.getD (n.val % 16) '0') = some (UInt8.ofNat n.val) := by
      decide +kernel
    simpa using hall digits (by simpa using hdigits) ⟨b.toNat, b.toNat_lt⟩
  induction bytes with
  | nil => rfl
  | cons b rest ih =>
    obtain ⟨h, l, hw, hr⟩ := hb b
    simp only [ofBytes, List.flatMap_cons, hw, List.cons_append, List.nil_append, bytes?, hr]
    simp only [ofBytes] at ih
    simp [ih]

end SqlMaps.Text.Hex
