import SqlMaps.Engine.RowSet
import SqlMaps.Proofs.Value.BeanReading

/-! The two ways to read a flag from a record.

One reads the text of the column and takes an absent value for a no; the other reads the column
as a flag that may be absent. They agree (`flag_agrees`): both look for the column in the same
way, and whatever a value is, its text says yes if and only if the value does. -/
namespace SqlMaps

namespace Value

/-- A value that is there is read as the flag that its text says. -/
theorem readFlag_of_ne_null {v : Value} (hnull : v ≠ .null) :
    v.readFlag = .ok (v.text?.any saysTrue) := by
  have htext : v.text? = some v.display := by
    cases v with
    | null => exact absurd rfl hnull
    | _ => rfl
  rw [← readFlag_display hnull, htext]
  rfl

/-- An optional flag is always read. -/
theorem read_optionalFlag (v : Value) : ∃ answer : Option Bool,
    FieldType.flag.optional.read v = .ok (answer.elim .null .flag) ∧
      (answer = none ↔ v = .null) ∧ v.text?.any saysTrue = answer.getD false := by
  by_cases hnull : v = .null
  · subst hnull
    exact ⟨none, rfl, by simp, rfl⟩
  · have hread : FieldType.flag.optional.read v = .flag <$> v.readFlag := by
      cases v with
      | null => exact absurd rfl hnull
      | _ => rfl
    refine ⟨some (v.text?.any saysTrue), ?_, by simp [hnull], rfl⟩
    rw [hread, readFlag_of_ne_null hnull]
    rfl

end Value

namespace Record
variable {r : Record} {column : Column}

section
variable {α : Type} {read : Value → Except ReadError α}

theorem readWith_of_value {v : Value} (h : r.value? column = some v) :
    r.readWith column read = (read v).mapError fun e => .field (.invalid column.label e) := by
  rw [readWith, h]

/-- Only a column that is not there is not found, whatever it would be read as. -/
theorem readWith_notFound_iff {label : String} :
    r.readWith column read = .error (.columnNotFound label) ↔
      r.value? column = none ∧ column.label = label := by
  cases hvalue : r.value? column with
  | none => simp [readWith, hvalue]
  | some v =>
    rw [readWith_of_value hvalue]
    cases read v <;> simp [Except.mapError]

end

/-- The two readers of flags miss the same columns, and read all others, where the one that has
no word for an absent value says no. -/
theorem flag_agrees (r : Record) (column : Column) :
    (∀ label, r.flag column = .error (.columnNotFound label) ↔
      r.get column FieldType.flag.optional = .error (.columnNotFound label)) ∧
    (r.flag column = .error (.columnNotFound column.label) ∧ r.value? column = none ∨
      ∃ v answer, r.value? column = some v ∧ (answer = none ↔ v = .null) ∧
        r.get column FieldType.flag.optional = .ok (answer.elim .null .flag) ∧
        r.flag column = .ok (answer.getD false)) := by
  constructor
  · intro label
    rw [flag, get, readWith_notFound_iff, readWith_notFound_iff]
  · cases hvalue : r.value? column with
    | none => exact .inl ⟨readWith_notFound_iff.2 ⟨hvalue, rfl⟩, rfl⟩
    | some v =>
      obtain ⟨answer, hread, hnull, htext⟩ := v.read_optionalFlag
      refine .inr ⟨v, answer, rfl, hnull, ?_, ?_⟩
      · rw [get, readWith_of_value hvalue, hread]
        rfl
      · rw [flag, readWith_of_value hvalue, htext]
        rfl

/-- The real number one says yes to both, as its text is that of the whole number. -/
example :
    let r : Record := ⟨["active"], [.real ⟨0x3FF0000000000000⟩]⟩
    r.flag (.named "active") = .ok true ∧
      r.get (.named "active") FieldType.flag.optional = .ok (.flag true) := by
  decide +kernel

end Record

end SqlMaps
