import SqlMaps.Proofs.Number.Layouts
import SqlMaps.Proofs.Sql.LiteralReading
import SqlMaps.Proofs.Template.Injection

/-! What a placeholder inserts, next to the literal of the value.

A value can come into a statement by a placeholder or, when a row is copied, as its literal.
Everything but a real number is written alike on both ways. A real number is inserted in the text
for reading: a whole one shows no point there and is read as an integer, one below a
ten-thousandth has no exponent but is read as the same number, and infinities and what is no
number are words of their own. `substitute_standsFor_iff` is the whole rule. -/
namespace SqlMaps

/-- Whether the value is written alike on both ways: it is no real number, or a finite one that is
not whole and at least a ten-thousandth. -/
def Value.InsertedAsLiteral : Value → Prop
  | .real x => ∃ negative m q, x.shape = .finite negative m q ∧ x.toInt? = none ∧
      (10 : ℚ) ^ (-4 : Int) ≤ m * 2 ^ q
  | _ => True

namespace Sql

/-- A real number that is not whole is read back from its text for reading. -/
theorem takes_display_of_fraction {x : Number.Binary64} {negative : Bool} {m : Nat} {q : Int}
    (h : x.shape = .finite negative m q) (hfraction : x.toInt? = none) :
    Takes readLiteral x.displayText.toList (.real x) := by
  rw [Number.Binary64.displayText, String.toList_ofList]
  exact takes_marked (fun c => isNumberChar_of_mem_write Number.RealLayout.endsIn_display h)
    (.inl (Number.Binary64.point_mem_display h hfraction).1)
    (Number.Binary64.read_write Number.RealLayout.endsIn_display h)

/-- The text for reading of a whole real number is read as an integer. -/
theorem takes_display_of_whole {x : Number.Binary64} {n : Int} (h : x.toInt? = some n)
    (hlow : Number.Range.int64.low ≤ x.shown) (hhigh : x.shown ≤ Number.Range.int64.high) :
    Takes readLiteral x.displayText.toList (.integer (Int64.ofInt x.shown)) := by
  intro rest hrest
  obtain ⟨negative, m, q, -, hshape, -⟩ := Number.Binary64.toInt?_spec h
  obtain ⟨hpoint, hpower⟩ := Number.Binary64.mark_not_mem_display h
  have hread := (Number.Binary64.read_shown_iff h).2 ⟨rfl, hlow, hhigh⟩
  have hne : Number.RealLayout.display.write x ≠ [] := by
    intro hnil
    rw [hnil] at hread
    cases hread
  have hmark : ((Number.RealLayout.display.write x).contains '.' ||
      (Number.RealLayout.display.write x).contains 'e') = false := by simpa using ⟨hpoint, hpower⟩
  rw [Number.Binary64.displayText, String.toList_ofList,
    readLiteral_append hne (fun c => isNumberChar_of_mem_write Number.RealLayout.endsIn_display hshape)
      hrest, hmark, hread]
  rfl

/-- The words for infinities and for what is no number are no literals. -/
theorem readLiteral_word {x : Number.Binary64} (h : ∀ negative m q, x.shape ≠ .finite negative m q)
    (rest : List Char) : readLiteral (x.displayText.toList ++ rest) = none := by
  rw [Number.Binary64.displayText, String.toList_ofList, Number.RealLayout.write]
  cases hshape : x.shape with
  | nan => rfl
  | infinite negative => cases negative <;> rfl
  | finite negative m q => exact absurd hshape (h negative m q)

end Sql

namespace Template

/-- A text that stands for a literal: it is the literal, but for the letter case of `NULL`. -/
def StandsFor (text literal : List Char) : Prop :=
  text = literal ∨ literal = "NULL".toList ∧ Text.sameLetters literal text = true

instance (text literal : List Char) : Decidable (StandsFor text literal) :=
  inferInstanceAs (Decidable (_ ∨ _ ∧ _))

theorem standsFor_inserted_iff (v : Value) :
    StandsFor (Piece.inserted v.bound) v.literal.toList ↔ v.InsertedAsLiteral := by
  cases v with
  | null => exact iff_of_true (.inr ⟨rfl, by decide⟩) trivial
  | flag b => exact iff_of_true (.inl rfl) trivial
  | integer n => exact iff_of_true (.inl rfl) trivial
  | text s =>
    refine iff_of_true (.inl ?_) trivial
    rw [inserted_of_quotedText? rfl, Value.literal, Text.Quoted.enclosed, String.toList_ofList]
  | blob bytes => exact iff_of_true (.inl rfl) trivial
  | timestamp t =>
    refine iff_of_true (.inl ?_) trivial
    rw [inserted_of_quotedText? rfl, Value.literal, Text.Quoted.enclosed, String.toList_ofList]
  | real x =>
    have hinserted : Piece.inserted (Value.real x).bound = Number.RealLayout.display.write x := by
      simp [Value.bound, Piece.inserted, Value.display, Number.Binary64.displayText]
    rw [hinserted, Value.literal, Value.realLiteral, Value.InsertedAsLiteral]
    cases hshape : x.shape with
    | nan =>
      rw [Number.RealLayout.write, hshape]
      exact iff_of_false (show ¬ StandsFor "NaN".toList "NULL".toList by decide) (by simp)
    | infinite negative =>
      have hwords : ¬ StandsFor ((if negative then ['-'] else []) ++ "inf".toList)
          (if negative then "-9e999" else "9e999").toList := by
        cases negative <;> decide
      rw [Number.RealLayout.write, hshape]
      exact iff_of_false hwords (by simp)
    | finite negative m q =>
      have hliteral : x.literalText.toList = Number.RealLayout.literal.write x := by
        rw [Number.Binary64.literalText, String.toList_ofList]
      have hnotNull : Number.RealLayout.literal.write x ≠ "NULL".toList := by
        intro hnull
        have hread := Number.Binary64.read_literal hshape
        rw [hnull] at hread
        cases hread
      simp only [hliteral, StandsFor, hnotNull, false_and, or_false]
      rw [Number.Binary64.write_display_eq_literal_iff hshape]
      simp

/-- Wherever a bound placeholder stands in a text, the literal of its value stands there, but for
the letter case of `NULL`, if and only if the value is no real number or a finite one that is not
whole and at least a ten-thousandth. A whole real number is read there as an integer, every other
finite one as itself, and infinities and what is no number are not read as literals. -/
theorem substitute_standsFor_iff {t : String} {params : List Param} {before after : List Piece}
    {name : List Char} (ht : Piece.ofText t.toList = before ++ .placeholder name :: after) {v : Value}
    (hv : Params.given params (String.ofList name) = some v) :
    let text := Piece.fill (.ofList params) (.placeholder name)
    (substitute (.ofList params) t).toList =
        before.flatMap (Piece.fill (.ofList params)) ++ text ++
          after.flatMap (Piece.fill (.ofList params)) ∧
      (StandsFor text v.literal.toList ↔ v.InsertedAsLiteral) ∧
      ∀ x, v = .real x →
        (∀ n, x.toInt? = some n → Number.Range.int64.low ≤ x.shown →
          x.shown ≤ Number.Range.int64.high →
            Sql.Takes Sql.readLiteral text (.integer (Int64.ofInt x.shown))) ∧
        (∀ negative m q, x.shape = .finite negative m q → x.toInt? = none →
          Sql.Takes Sql.readLiteral text (.real x)) ∧
        ((∀ negative m q, x.shape ≠ .finite negative m q) →
          ∀ rest, Sql.readLiteral (text ++ rest) = none) := by
  intro text
  have htext : text = Piece.inserted v.bound := by
    simp only [text, Piece.fill, Params.get?_ofList, hv, Option.map_some]
  refine ⟨?_, htext ▸ standsFor_inserted_iff v, ?_⟩
  · rw [substitute, String.toList_ofList, ht, List.flatMap_append, List.flatMap_cons,
      List.append_assoc]
  · rintro x rfl
    have hdisplay : text = x.displayText.toList := htext
    rw [hdisplay]
    exact ⟨fun _ h => Sql.takes_display_of_whole h, fun _ _ _ h => Sql.takes_display_of_fraction h,
      Sql.readLiteral_word⟩

/-- A half is inserted as its literal and is read as it was given. -/
theorem substitute_standsFor_iff_half :
    let params : List Param := [⟨"x", .real (.ofFraction false 1 2)⟩]
    substitute (.ofList params) "SELECT #(x)#" = "SELECT 0.5" ∧
      StandsFor "0.5".toList (Value.real (.ofFraction false 1 2)).literal.toList ∧
      Sql.Takes Sql.readLiteral "0.5".toList (.real (.ofFraction false 1 2)) := by
  intro params
  have hshape : Number.Binary64.shape (.ofFraction false 1 2) = .finite false (2 ^ 52) (-53) := by
    decide +kernel
  have hfraction : Number.Binary64.toInt? (.ofFraction false 1 2) = none := by decide +kernel
  have htext : Piece.fill (.ofList params) (.placeholder ['x']) = "0.5".toList := by decide +kernel
  have hpieces : Piece.ofText "SELECT #(x)#".toList =
      "SELECT ".toList.map .char ++ .placeholder ['x'] :: [] := by decide +kernel
  have hgiven : Params.given params "x" = some (.real (.ofFraction false 1 2)) := by decide
  obtain ⟨hwhole, halike, hread⟩ := substitute_standsFor_iff hpieces hgiven
  rw [htext] at hwhole halike hread
  refine ⟨String.ext ?_, halike.2 ⟨false, _, _, hshape, hfraction, by norm_num⟩,
    (hread _ rfl).2.1 _ _ _ hshape hfraction⟩
  rw [hwhole]
  decide +kernel

/-- A real one is inserted as an integer one, and an infinity as a name; neither is what the literal
says. -/
theorem substitute_one_and_infinity :
    substitute (.ofList [⟨"x", .real (.ofInt 1)⟩]) "SELECT #(x)#" = "SELECT 1" ∧
      (Value.real (.ofInt 1)).literal = "1.0" ∧
      substitute (.ofList [⟨"x", .real (.infinity false)⟩]) "SELECT #(x)#" = "SELECT inf" ∧
      (Value.real (.infinity false)).literal = "9e999" := by
  decide +kernel

end Template

end SqlMaps
