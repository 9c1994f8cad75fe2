import SqlMaps.Proofs.Value.Characters
import SqlMaps.Template.Placeholder

/-! Bound text cannot reach the statement around it.

A reader of a statement that knows nothing but quotes sees regions: every single quote
opens one or closes the one that is open. `outsideQuotes` is what it sees outside of
them. Where each bound placeholder stands outside of the regions of the template, two
substitutions that differ in bound text only show it the same characters
(`outsideQuotes_substitute`), and every text stands in the statement as a quoted form
that reads back.

The proof goes over the pieces of the template with the state of the reader. A piece
leaves that state as it would without any insertion, because every inserted form has
its quotes in pairs (`quotedAfter_inserted`). -/
namespace SqlMaps

/-- The text that a placeholder of the value puts between quotes, if it does. -/
def Value.quotedText? : Value → Option String
  | .text s => some s
  | .timestamp t => some t.text
  | _ => none

/-- The value given for a name; the last one counts. -/
def Params.given (params : List Param) (name : String) : Option Value :=
  (params.reverse.find? (·.name = name)).map Param.value

/-- What is bound to a name is the bound form of what was given for it. -/
theorem Params.get?_ofList (params : List Param) (name : String) :
    (ofList params).get? name = (given params name).map Value.bound := by
  simp only [get?, ofList, given, ← List.map_reverse]
  induction params.reverse with
  | nil => rfl
  | cons p rest ih =>
    simp only [List.map_cons, List.lookup_cons, List.find?_cons]
    by_cases h : p.name = name
    · simp [h]
    · have hne : (name == p.name) = false := beq_eq_false_iff_ne.mpr (Ne.symm h)
      simp [h, hne, ih]

namespace Template

/-! ### A reader of quotes -/

/-- The characters outside of quoted regions, read in or outside of one. -/
def outsideQuotes : (quoted : Bool) → List Char → List Char
  | _, [] => []
  | quoted, c :: s =>
    if c = '\'' then outsideQuotes (!quoted) s
    else if quoted then outsideQuotes quoted s
    else c :: outsideQuotes quoted s

/-- Whether a region is open after the text. -/
def quotedAfter : (quoted : Bool) → List Char → Bool
  | quoted, [] => quoted
  | quoted, c :: s => quotedAfter (if c = '\'' then !quoted else quoted) s

theorem outsideQuotes_append (quoted : Bool) (s t : List Char) :
    outsideQuotes quoted (s ++ t) =
      outsideQuotes quoted s ++ outsideQuotes (quotedAfter quoted s) t := by
  induction s generalizing quoted with
  | nil => rfl
  | cons c s ih =>
    by_cases hc : c = '\''
    · simp only [List.cons_append, outsideQuotes, quotedAfter, hc, if_true, ih]
    · cases quoted <;> simp [outsideQuotes, quotedAfter, hc, ih]

theorem quotedAfter_append (quoted : Bool) (s t : List Char) :
    quotedAfter quoted (s ++ t) = quotedAfter (quotedAfter quoted s) t := by
  induction s generalizing quoted with
  | nil => rfl
  | cons c s ih => exact ih _

/-- The state after a text hangs on the number of its quotes only. -/
theorem quotedAfter_eq (quoted : Bool) (s : List Char) :
    quotedAfter quoted s = (quoted ^^ (s.count '\'' % 2 == 1)) := by
  induction s generalizing quoted with
  | nil => simp [quotedAfter]
  | cons c s ih =>
    rw [quotedAfter, ih, List.count_cons]
    by_cases hc : c = '\''
    · have hparity : ((s.count '\'' + 1) % 2 == 1) = !(s.count '\'' % 2 == 1) := by
        rcases Nat.mod_two_eq_zero_or_one (s.count '\'') with h | h <;> simp [Nat.add_mod, h]
      simp [hc, hparity]
    · simp [hc]

theorem quotedAfter_of_even (quoted : Bool) {s : List Char} (h : s.count '\'' % 2 = 0) :
    quotedAfter quoted s = quoted := by
  simp [quotedAfter_eq, h]

/-! ### What is inserted -/

theorem not_mem_of_all {p : Char → Bool} (hp : p '\'' = false) {s : List Char}
    (h : ∀ c ∈ s, p c = true) : '\'' ∉ s := by
  intro hq
  rw [h _ hq] at hp
  cases hp

/-- A text between quotes shows nothing outside of them. -/
theorem outsideQuotes_enclose (s : List Char) :
    outsideQuotes false (Text.Quoted.enclose '\'' s) = [] := by
  suffices outsideQuotes true (Text.Quoted.double '\'' s ++ ['\'']) = [] by
    simpa [Text.Quoted.enclose, outsideQuotes] using this
  induction s with
  | nil => rfl
  | cons c s ih =>
    by_cases hc : c = '\''
    · simpa [Text.Quoted.double, hc, outsideQuotes] using ih
    · simpa [Text.Quoted.double, hc, outsideQuotes] using ih

theorem count_enclose (s : List Char) : (Text.Quoted.enclose '\'' s).count '\'' % 2 = 0 := by
  simp [Text.Quoted.enclose, Text.Quoted.count_double]
  omega

/-- A value that is put between quotes is inserted as the quoted form of its text. -/
theorem inserted_of_quotedText? {v : Value} {s : String} (h : v.quotedText? = some s) :
    Piece.inserted v.bound = Text.Quoted.enclose '\'' s.toList := by
  cases v with
  | text u =>
    cases h
    simp [Value.bound, Piece.inserted, Text.Quoted.enclose]
  | timestamp t =>
    cases h
    have hq : '\'' ∉ t.write :=
      not_mem_of_all (by decide) fun _ hc => Calendar.Timestamp.mem_write hc
    simp [Value.bound, Piece.inserted, Text.Quoted.enclose, Calendar.Timestamp.text,
      Text.Quoted.double_of_not_mem hq]
  | null | flag | integer | real | blob => cases h

/-- Every inserted form has its quotes in pairs. -/
theorem count_inserted (v : Value) : (Piece.inserted v.bound).count '\'' % 2 = 0 := by
  have hnone : ∀ {s : List Char}, '\'' ∉ s → s.count '\'' % 2 = 0 := by
    intro s h
    rw [List.count_eq_zero.mpr h]
  have hint : ∀ i : Int, '\'' ∉ (Number.intText i).toList := fun i =>
    not_mem_of_all (p := Number.isNumberChar) (by decide) fun _ hc => Number.mem_intText hc
  cases v with
  | null => decide
  | flag b => exact hnone (hint _)
  | integer n => exact hnone (hint _)
  | real x =>
    exact hnone (not_mem_of_all (p := Number.isNumberChar) (by decide)
      fun _ hc => Number.Binary64.mem_displayText hc)
  | text s => rw [inserted_of_quotedText? rfl]; exact count_enclose _
  | timestamp t => rw [inserted_of_quotedText? rfl]; exact count_enclose _
  | blob bytes =>
    have hdigits : '\'' ∉ Text.Hex.ofBytes Text.Hex.capitalDigits bytes := by
      intro hq
      exact absurd (Text.Hex.mem_ofBytes (by decide) hq) (by decide)
    simp [Value.bound, Piece.inserted, Value.display, Value.blobText,
      List.count_eq_zero.mpr hdigits]

theorem quotedAfter_inserted (quoted : Bool) (v : Value) :
    quotedAfter quoted (Piece.inserted v.bound) = quoted :=
  quotedAfter_of_even quoted (count_inserted v)

/-! ### Pieces of a template -/

namespace Piece

/-- Whether the piece is a placeholder of a bound name. -/
def isBound (params : Params) : Piece → Bool
  | .char _ => false
  | .placeholder name => (params.get? (String.ofList name)).isSome

/-- What the piece adds to the text of the template outside of bound placeholders. -/
def unfilled (params : Params) (p : Piece) : List Char :=
  if p.isBound params then [] else p.source

end Piece

/-- Every bound placeholder comes after an even number of the quotes outside of bound
placeholders. -/
def PlacedOutside (params : Params) (pieces : List Piece) : Prop :=
  ∀ i, (h : i < pieces.length) → pieces[i].isBound params = true →
    ((pieces.take i).flatMap (Piece.unfilled params)).count '\'' % 2 = 0

instance (params : Params) (pieces : List Piece) : Decidable (PlacedOutside params pieces) :=
  inferInstanceAs (Decidable (∀ i, (h : i < pieces.length) → _))

/-- Two given values bind the same, or both go between quotes. -/
inductive Alike : Option Value → Option Value → Prop where
  | absent : Alike none none
  | same {v w : Value} : v.bound = w.bound → Alike (some v) (some w)
  | quoted {v w : Value} : v.quotedText?.isSome = true → w.quotedText?.isSome = true →
      Alike (some v) (some w)

section TwoRuns
variable {ps qs : List Param}

theorem isBound_congr (h : ∀ name, Alike (Params.given ps name) (Params.given qs name))
    (p : Piece) : p.isBound (.ofList ps) = p.isBound (.ofList qs) := by
  cases p with
  | char c => rfl
  | placeholder name =>
    have halike := h (String.ofList name)
    simp only [Piece.isBound, Params.get?_ofList]
    generalize Params.given ps (String.ofList name) = v, Params.given qs (String.ofList name) = w
      at halike
    cases halike <;> rfl

theorem fill_of_not_isBound {params : Params} {p : Piece} (h : p.isBound params = false) :
    p.fill params = p.source := by
  cases p with
  | char c => rfl
  | placeholder name =>
    have hnone : params.get? (String.ofList name) = none := by
      simpa [Piece.isBound] using h
    simp [Piece.fill, hnone]

/-- A piece leaves the reader where the template without insertions leaves it. -/
theorem quotedAfter_fill (quoted : Bool) (p : Piece) :
    quotedAfter quoted (p.fill (.ofList ps)) = quotedAfter quoted (p.unfilled (.ofList ps)) := by
  cases hb : p.isBound (.ofList ps) with
  | false => simp [Piece.unfilled, hb, fill_of_not_isBound hb]
  | true =>
    cases p with
    | char c => cases hb
    | placeholder name =>
      obtain ⟨v, hv⟩ := Option.isSome_iff_exists.mp hb
      obtain ⟨w, -, rfl⟩ := Option.map_eq_some_iff.mp (Params.get?_ofList ps _ ▸ hv)
      simp [Piece.fill, hv, Piece.unfilled, hb, quotedAfter_inserted, quotedAfter]

/-- One piece shows the same in both runs, where a bound one is read outside of quotes. -/
theorem outsideQuotes_fill (h : ∀ name, Alike (Params.given ps name) (Params.given qs name))
    (quoted : Bool) (p : Piece) (hp : p.isBound (.ofList ps) = true → quoted = false) :
    outsideQuotes quoted (p.fill (.ofList ps)) = outsideQuotes quoted (p.fill (.ofList qs)) := by
  cases p with
  | char c => rfl
  | placeholder name =>
    have halike := h (String.ofList name)
    have hq : (Params.given ps (String.ofList name)).isSome = true → quoted = false := by
      simpa [Piece.isBound, Params.get?_ofList] using hp
    simp only [Piece.fill, Params.get?_ofList]
    generalize Params.given ps (String.ofList name) = v, Params.given qs (String.ofList name) = w
      at halike hq
    cases halike with
    | absent => rfl
    | same he => simp only [Option.map_some, he]
    | quoted hv hw =>
      obtain ⟨s, hs⟩ := Option.isSome_iff_exists.mp hv
      obtain ⟨u, hu⟩ := Option.isSome_iff_exists.mp hw
      simp only [Option.map_some, inserted_of_quotedText? hs, inserted_of_quotedText? hu, hq rfl,
        outsideQuotes_enclose]

/-- From any point of the template on, both runs show the same. -/
theorem outsideQuotes_flatMap_fill
    (h : ∀ name, Alike (Params.given ps name) (Params.given qs name)) (before after : List Piece)
    (hplaced : PlacedOutside (.ofList ps) (before ++ after)) :
    let quoted := quotedAfter false (before.flatMap (Piece.unfilled (.ofList ps)))
    outsideQuotes quoted (after.flatMap (Piece.fill (.ofList ps))) =
      outsideQuotes quoted (after.flatMap (Piece.fill (.ofList qs))) := by
  induction after generalizing before with
  | nil => rfl
  | cons p after ih =>
    have hp : p.isBound (.ofList ps) = true →
        quotedAfter false (before.flatMap (Piece.unfilled (.ofList ps))) = false := by
      intro hb
      have := hplaced before.length (by simp) (by simpa using hb)
      exact quotedAfter_of_even false (by simpa using this)
    have hunfilled : p.unfilled (.ofList qs) = p.unfilled (.ofList ps) := by
      simp only [Piece.unfilled, isBound_congr h]
    have hrest := ih (before ++ [p]) (by simpa using hplaced)
    simp only [List.flatMap_append, List.flatMap_cons, List.flatMap_nil, List.append_nil,
      quotedAfter_append] at hrest
    simp only [List.flatMap_cons, outsideQuotes_append, quotedAfter_fill, hunfilled,
      outsideQuotes_fill h _ p hp, hrest]

end TwoRuns

/-- **Bound text cannot change the statement around it.** Two parameter lists that give
values alike for every name leave the same characters outside of quotes, in any template
whose bound placeholders stand outside of them. And where a value goes between quotes,
its form in the statement is a quote, the text with its quotes doubled, and a quote. -/
theorem outsideQuotes_substitute (t : String) (ps : List Param) :
    (∀ qs, (∀ name, Alike (Params.given ps name) (Params.given qs name)) →
      PlacedOutside (.ofList ps) (Piece.ofText t.toList) →
      outsideQuotes false (substitute (.ofList ps) t).toList =
        outsideQuotes false (substitute (.ofList qs) t).toList) ∧
    ∀ before name after v s, Piece.ofText t.toList = before ++ .placeholder name :: after →
      Params.given ps (String.ofList name) = some v → v.quotedText? = some s →
      ∃ body, (substitute (.ofList ps) t).toList =
          before.flatMap (Piece.fill (.ofList ps)) ++ ('\'' :: body ++ ['\'']) ++
            after.flatMap (Piece.fill (.ofList ps)) ∧
        Text.Quoted.undouble '\'' body = some s.toList := by
  refine ⟨fun qs h hplaced => ?_, fun before name after v s ht hv hs => ?_⟩
  · simpa [substitute, quotedAfter] using outsideQuotes_flatMap_fill h [] _ hplaced
  · refine ⟨Text.Quoted.double '\'' s.toList, ?_, Text.Quoted.undouble_double _ _⟩
    have hfill : Piece.fill (.ofList ps) (.placeholder name) =
        '\'' :: Text.Quoted.double '\'' s.toList ++ ['\''] := by
      simp only [Piece.fill, Params.get?_ofList, hv, Option.map_some]
      exact inserted_of_quotedText? hs
    simp [substitute, ht, hfill]

/-- A text that tries to end its literal shows a reader of quotes no more than any other,
and reads back from the statement as it was given. -/
theorem outsideQuotes_substitute_drop :
    outsideQuotes false
        (substitute (.ofList [⟨"a", .text "O'Brien"⟩]) "a = '#(b)#' OR c = #(a)#;").toList =
      outsideQuotes false
        (substitute (.ofList [⟨"a", .text "'; DROP TABLE t; --"⟩])
          "a = '#(b)#' OR c = #(a)#;").toList ∧
    ∃ body,
      (substitute (.ofList [⟨"a", .text "'; DROP TABLE t; --"⟩])
          "a = '#(b)#' OR c = #(a)#;").toList =
        "a = '#(b)#' OR c = ".toList ++ ('\'' :: body ++ ['\'']) ++ [';'] ∧
      Text.Quoted.undouble '\'' body = some "'; DROP TABLE t; --".toList := by
  refine ⟨(outsideQuotes_substitute _ _).1 _ (fun name => ?_) (by decide +kernel),
    (outsideQuotes_substitute _ _).2
      ("a = '".toList.map .char ++ .placeholder ['b'] :: "' OR c = ".toList.map .char)
      ['a'] [.char ';'] _ _ (by decide +kernel) rfl rfl⟩
  by_cases h : "a" = name
  · simpa [Params.given, h] using Alike.quoted rfl rfl
  · simpa [Params.given, h] using Alike.absent

end Template

end SqlMaps
