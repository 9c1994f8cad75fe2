import SqlMaps.Number.RealText

/-! What a plainly written scalar is read as: nothing, a flag, a number, or text. -/
namespace SqlMaps.Yaml

/-- The words for nothing. -/
def isNullWord (s : String) : Bool :=
  ["~", "null", "Null", "NULL"].contains s

/-- Whether a text stands for nothing: a word for it, or no text at all. -/
def isNull (s : String) : Bool :=
  s.isEmpty || isNullWord s

/-- The flag that a text spells. -/
def flag? (s : String) : Option Bool :=
  if ["true", "True", "TRUE"].contains s then some true
  else if ["false", "False", "FALSE"].contains s then some false
  else none

/-- Whether a text has digits only and begins with a zero it does not need. Such a
text is no number. -/
def zeroPadded (s : List Char) : Bool :=
  let digits := match s with
    | '+' :: rest => rest
    | '-' :: rest => rest
    | s => s
  match digits with
  | '0' :: rest => !rest.isEmpty && rest.all Char.isDigit
  | _ => false

/-- Whether a text begins with a sign. -/
def signed : List Char → Bool
  | '+' :: _ => true
  | '-' :: _ => true
  | _ => false

/-- A number of the range in digits of the base, without a sign. -/
def unsigned? (range : Number.Range) (base : Nat) (s : List Char) : Option Int :=
  if signed s then none else (range.read base s).toOption

/-- A number of the range, not negative: decimal, or in another base after its mark. -/
def natural? (range : Number.Range) (s : List Char) : Option Int :=
  let bare := match s with
    | '+' :: rest => rest
    | s => s
  let marked := match bare with
    | '0' :: 'x' :: rest => unsigned? range 16 rest
    | '0' :: 'o' :: rest => unsigned? range 8 rest
    | '0' :: 'b' :: rest => unsigned? range 2 rest
    | _ => none
  marked.orElse fun _ => if zeroPadded s then none else unsigned? range 10 bare

/-- A negative number of the range: decimal, or in another base after its mark. -/
def negative? (range : Number.Range) (s : List Char) : Option Int :=
  let marked := match s with
    | '-' :: '0' :: 'x' :: rest => (range.read 16 ('-' :: rest)).toOption
    | '-' :: '0' :: 'o' :: rest => (range.read 8 ('-' :: rest)).toOption
    | '-' :: '0' :: 'b' :: rest => (range.read 2 ('-' :: rest)).toOption
    | _ => none
  marked.orElse fun _ => if zeroPadded s then none else (range.read 10 s).toOption

/-- Unsigned numbers of 128 bits. -/
def nat128 : Number.Range := ⟨0, Number.pow2 128 - 1⟩
/-- Signed numbers of 128 bits. -/
def int128 : Number.Range := ⟨-Number.pow2 127, Number.pow2 127 - 1⟩

/-- Whether a text is read as a whole number. -/
def isWhole (s : List Char) : Bool :=
  (natural? nat128 s).isSome || (negative? int128 s).isSome

/-- Whether a text is read as a real number. -/
def isReal (s : List Char) : Bool :=
  let bare := match s with
    | '+' :: rest => rest
    | s => s
  let named := [".inf", ".Inf", ".INF"].contains (String.ofList bare) ||
    ["-.inf", "-.Inf", "-.INF", ".nan", ".NaN", ".NAN"].contains (String.ofList s)
  let finite := match Number.Binary64.read bare with
    | .ok x => match x.shape with
      | .finite .. => true
      | _ => false
    | .error _ => false
  if s.head? = some '+' && signed bare then false else named || finite

/-- Whether a text, written plainly, is read as something else than itself. -/
def readsOtherwise (s : String) : Bool :=
  isNull s || (flag? s).isSome || isWhole s.toList || zeroPadded s.toList || isReal s.toList

end SqlMaps.Yaml
