import SqlMaps.Number.Integer

/-! Character references, `&lt;` or `&#10;`: how markup writes characters that would
not stand for themselves. Each reference is decoded once; a reference to no
character stays as it is written. -/
namespace SqlMaps.Markup.Entity

/-- The character with a code point, if there is one. -/
def charOf? (code : Nat) : Option Char :=
  if code.isValidChar then some (Char.ofNat code) else none

/-- The code point that a number of digits of the base denotes. -/
def code? (base : Nat) (digits : List Char) : Option Nat :=
  if digits.isEmpty ∨ ¬ digits.all fun c => (Number.Range.digit? base c).isSome then none
  else match Number.Range.nat32.read base digits with
    | .ok n => some n.toNat
    | .error _ => none

/-- The character that a reference names, from what stands between `&` and `;`. -/
def named? (name : List Char) : Option Char :=
  match name with
  | ['l', 't'] => some '<'
  | ['g', 't'] => some '>'
  | ['a', 'm', 'p'] => some '&'
  | ['q', 'u', 'o', 't'] => some '"'
  | ['a', 'p', 'o', 's'] => some '\''
  | '#' :: 'x' :: digits => (code? 16 digits).bind charOf?
  | '#' :: digits => (code? 10 digits).bind charOf?
  | _ => none

/-- The reference at the head of the text after its `&`: the character, and the text
after the `;`. -/
def reference? (s : List Char) : Option (Char × List Char) :=
  match s.dropWhile (· ≠ ';') with
  | [] => none
  | _ :: after => (named? (s.takeWhile (· ≠ ';'))).map fun c => (c, after)

theorem reference?_length {s after : List Char} {c : Char}
    (h : reference? s = some (c, after)) : after.length < s.length := by
  unfold reference? at h
  split at h
  · simp at h
  · rename_i d rest hd
    obtain ⟨_, _, he⟩ := Option.map_eq_some_iff.1 h
    simp only [Prod.mk.injEq] at he
    have := (List.dropWhile_sublist (l := s) (· ≠ ';')).length_le
    rw [hd, List.length_cons] at this
    rw [← he.2]
    exact this

/-- The text with its references decoded. -/
def decode : List Char → List Char
  | [] => []
  | c :: rest =>
    if c = '&' then
      match _h : reference? rest with
      | some (d, after) => d :: decode after
      | none => c :: decode rest
    else c :: decode rest
termination_by s => s.length
decreasing_by
  · have := reference?_length ‹_›
    simp only [List.length_cons]
    omega
  · simp
  · simp

end SqlMaps.Markup.Entity
