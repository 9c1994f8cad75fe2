import SqlMaps.Value.Params

/-! Placeholders, `#(name)#`: where the text of a template takes a bound value.

A text is cut into placeholders and single characters; putting the pieces together
again gives the text (`flatMap_source_ofText`). Substitution replaces the bound
placeholders and looks at nothing it has inserted. -/
namespace SqlMaps.Template

/-- A piece of a text: a character, or a placeholder of a name. -/
inductive Piece where
  | char (c : Char)
  | placeholder (name : List Char)
  deriving DecidableEq

namespace Piece

/-- Whether a placeholder's name can hold the character. -/
def isNameChar (c : Char) : Bool :=
  c != ')' && c != '#'

/-- The placeholder at the head of the text after its first `#`: its name, and the
text after it. -/
def placeholder? : List Char → Option (List Char × List Char)
  | '(' :: s =>
    match s.takeWhile isNameChar, s.dropWhile isNameChar with
    | c :: name, ')' :: '#' :: rest => some (c :: name, rest)
    | _, _ => none
  | _ => none

/-- How the piece is written. -/
def source : Piece → List Char
  | .char c => [c]
  | .placeholder name => '#' :: '(' :: name ++ [')', '#']

theorem placeholder?_eq_some {s name rest : List Char}
    (h : placeholder? s = some (name, rest)) : '#' :: s = source (.placeholder name) ++ rest := by
  unfold placeholder? at h
  split at h
  · rename_i s
    split at h
    · rename_i c name' rest' hn hr
      simp only [Option.some.injEq, Prod.mk.injEq] at h
      have := List.takeWhile_append_dropWhile (p := isNameChar) (l := s)
      rw [hn, hr] at this
      rw [← this, ← h.1, ← h.2]
      simp [source]
    · simp at h
  · simp at h

/-- Cuts a text into its placeholders and the characters between them. -/
def ofText : List Char → List Piece
  | [] => []
  | c :: s =>
    if c = '#' then
      match _h : placeholder? s with
      | some (name, rest) => .placeholder name :: ofText rest
      | none => .char c :: ofText s
    else .char c :: ofText s
termination_by s => s.length
decreasing_by
  · have := congrArg List.length (placeholder?_eq_some ‹_›)
    simp only [source, List.length_cons, List.length_append] at this ⊢
    omega
  · simp
  · simp

/-- The pieces, put together again, are the text. -/
theorem flatMap_source_ofText (s : List Char) : (ofText s).flatMap source = s := by
  fun_induction ofText s with
  | case1 => rfl
  | case2 s name rest h ih =>
    rw [List.flatMap_cons, ih, ← placeholder?_eq_some h]
  | case3 s h ih => simp [source, ih]
  | case4 c s hc ih => simp [source, ih]

/-- What a placeholder of a bound value becomes: text goes between quotes. -/
def inserted : Value → List Char
  | .text s => '\'' :: s.toList ++ ['\'']
  | v => v.display.toList

/-- The piece with its value put in; without a value it stays as it is written. -/
def fill (params : Params) : Piece → List Char
  | .char c => [c]
  | .placeholder name =>
    match params.get? (String.ofList name) with
    | some v => inserted v
    | none => source (.placeholder name)

end Piece

/-- The text with every bound placeholder replaced. -/
def substitute (params : Params) (text : String) : String :=
  String.ofList ((Piece.ofText text.toList).flatMap (Piece.fill params))

end SqlMaps.Template
