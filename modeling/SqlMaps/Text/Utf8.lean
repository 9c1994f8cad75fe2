/-! Bytes shown as text.

Bytes that are UTF-8 are shown as the characters they encode. A byte that begins no
character, and the part of a character that breaks off, are each shown as one U+FFFD, and
reading goes on with the byte that broke it. So any bytes can be shown, and those of ASCII
are shown as they are (`shown_ascii`). -/
namespace SqlMaps.Text.Utf8

/-- A character that has been begun: the value of the bytes so far, and the bounds of each
byte that is missing. -/
structure Begun where
  value : Nat
  missing : List (Nat × Nat)

/-- The bounds of most bytes that continue a character. -/
def continuation : Nat × Nat := (0x80, 0xBF)

/-- The character that a byte begins. The byte behind it is bounded so that the value takes
no fewer bytes to write, and is neither a surrogate nor too large. -/
def begun? (b : Nat) : Option Begun :=
  if b < 0x80 then some ⟨b, []⟩
  else if b < 0xC2 then none
  else if b < 0xE0 then some ⟨b - 0xC0, [continuation]⟩
  else if b < 0xF0 then
    let second := if b = 0xE0 then (0xA0, 0xBF) else if b = 0xED then (0x80, 0x9F) else continuation
    some ⟨b - 0xE0, [second, continuation]⟩
  else if b < 0xF5 then
    let second := if b = 0xF0 then (0x90, 0xBF) else if b = 0xF4 then (0x80, 0x8F) else continuation
    some ⟨b - 0xF0, [second, continuation, continuation]⟩
  else none

/-- What stands for bytes that encode no character. -/
def replacement : Char := '\uFFFD'

/-- What a byte shows when no character is open, and the character it leaves open. -/
def start (b : Nat) : List Char × Option Begun :=
  match begun? b with
  | none => ([replacement], none)
  | some ⟨value, []⟩ => ([Char.ofNat value], none)
  | some begun => ([], some begun)

/-- What a byte shows behind a character that is open, and the character it leaves open. -/
def next (b : Nat) : Option Begun → List Char × Option Begun
  | none | some ⟨_, []⟩ => start b
  | some ⟨value, (least, most) :: missing⟩ =>
    let value := value * 64 + (b - 0x80)
    if b < least ∨ most < b then
      let (shown, begun) := start b
      (replacement :: shown, begun)
    else if missing.isEmpty then ([Char.ofNat value], none)
    else ([], some ⟨value, missing⟩)

/-- What bytes show behind a character that may be open. -/
def run : List UInt8 → Option Begun → List Char
  | [], none => []
  | [], some _ => [replacement]
  | b :: bytes, begun =>
    let (shown, begun) := next b.toNat begun
    shown ++ run bytes begun

/-- The text that bytes show. -/
def shown (bytes : List UInt8) : String :=
  String.ofList (run bytes none)

theorem run_ascii (bytes : List UInt8) (h : ∀ b ∈ bytes, b.toNat < 0x80) :
    run bytes none = bytes.map fun b => Char.ofNat b.toNat := by
  induction bytes with
  | nil => rfl
  | cons b bytes ih =>
    have hb : b.toNat < 0x80 := h b (by simp)
    have hs : next b.toNat none = ([Char.ofNat b.toNat], none) := by
      simp [next, start, begun?, hb]
    simp [run, hs, ih fun c hc => h c (by simp [hc])]

theorem shown_ascii (bytes : List UInt8) (h : ∀ b ∈ bytes, b.toNat < 0x80) :
    shown bytes = String.ofList (bytes.map fun b => Char.ofNat b.toNat) := by
  rw [shown, run_ascii bytes h]

end SqlMaps.Text.Utf8
