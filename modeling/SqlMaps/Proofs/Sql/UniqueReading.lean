import SqlMaps.Proofs.Sql.StatementReading

/-! Statements that write rows have one reading.

`takeInsert` and `takeUpdate` go through a statement from the left and give its parts back,
whatever names and values stand in it and whatever follows it (`takes_insert`, `takes_update`).
So no two statements with different parts have one text, and none is the beginning of another.
Values count by what a store holds for their literals; texts, bytes, whole numbers and absent
values are told apart as they are (`writes_readUniquely`). -/
namespace SqlMaps.Sql

/-! ### Lists that may be empty -/

section Parts
variable {α β : Type} {part : Reader α} {text : β → String} {value : β → α}

/-- Reads parts separated by a comma and a space; there may be none. -/
def readParts (part : Reader α) : Reader (List α) := fun s =>
  (readCommaList part s).or (some ([], s))

/-- Parts are read up to an end at which none begins. -/
theorem readParts_commaList (hpart : ∀ b, Takes part (text b).toList (value b)) (items : List β)
    {rest : List Char} (hrest : EndsList rest) (hnone : part rest = none) :
    readParts part ((commaList (items.map text)).toList ++ rest) =
      some (items.map value, rest) := by
  cases items with
  | nil =>
    have hread : readCommaList part rest = none := by
      rw [readCommaList, readList, hnone]
      rfl
    show (readCommaList part rest).or (some ([], rest)) = _
    rw [hread]
    rfl
  | cons b items =>
    have hread := readCommaList_commaList hpart (List.cons_ne_nil b items) rest hrest
    rw [readParts, hread]
    rfl

end Parts

/-- Where a list ends no quoted text begins. -/
theorem readQuoted_of_endsList {quote : Char} (hquote : quote ∉ [')', ' ']) {rest : List Char}
    (hrest : EndsList rest) : readQuoted quote rest = none := by
  cases rest with
  | nil => rfl
  | cons c rest =>
    have hne : c ≠ quote := by
      rintro rfl
      exact hquote (by simpa using hrest c rfl)
    rw [readQuoted, if_neg hne]

theorem readAssignment_of_endsList {rest : List Char} (hrest : EndsList rest) :
    readAssignment rest = none := by
  have hname : readIdentifier rest = none := readQuoted_of_endsList (by decide) hrest
  rw [readAssignment, hname]
  rfl

/-- A closing bracket begins no literal. -/
theorem readLiteral_bracket (rest : List Char) : readLiteral (')' :: rest) = none := by
  have htake : (')' :: rest).takeWhile isNumberChar = [] := rfl
  rw [readLiteral, readNumber, htake]
  · rfl
  all_goals simp

/-! ### The readers -/

/-- Reads a statement that adds a row: its table, columns and values. -/
def takeInsert : Reader (String × List String × List Value) := fun s => do
  let (_, rest) ← readWord "INSERT INTO " s
  let (table, rest) ← readIdentifier rest
  let (_, rest) ← readWord " (" rest
  let (names, rest) ← readParts readIdentifier rest
  let (_, rest) ← readWord ") VALUES (" rest
  let (values, rest) ← readParts readLiteral rest
  let (_, rest) ← readWord ")" rest
  return ((table, names, values), rest)

/-- Reads a whole number off the head of a text. -/
def takeInteger : Reader Int64 := fun s =>
  match readLiteral s with
  | some (.integer n, rest) => some (n, rest)
  | _ => none

/-- Reads a statement that changes a row: its table, assignments and row id. -/
def takeUpdate : Reader (String × List (String × Value) × Int64) := fun s => do
  let (_, rest) ← readWord "UPDATE " s
  let (table, rest) ← readIdentifier rest
  let (_, rest) ← readWord " SET " rest
  let (assignments, rest) ← readParts readAssignment rest
  let (_, rest) ← readWord " WHERE ROWID = " rest
  let (rowId, rest) ← takeInteger rest
  return ((table, assignments, rowId), rest)

/-- The assignments as they are read from their text. -/
def storedAssignments (assignments : List (String × Value)) : List (String × Value) :=
  assignments.map fun a => (a.1, Store.stored a.2)

theorem takes_insert (table : String) (names : List String) (values : List Value) :
    Takes takeInsert (Command.insert table names values).text.toList
      (table, names, values.map Store.stored) := by
  intro rest _
  have hnames := readParts_commaList takes_identifier names
    (@endsList_append ") VALUES (" (by decide)
      ((literals values).toList ++ (")".toList ++ rest)))
    (readQuoted_of_endsList (by decide) (endsList_append (by decide) _))
  have hvalues := readParts_commaList takes_literal values
    (@endsList_append ")" (by decide) rest) (readLiteral_bracket rest)
  rw [List.map_id'] at hnames
  rw [toList_insert]
  simp only [List.append_assoc, List.append_nil, takeInsert, readWord_append,
    Option.bind_eq_bind, Option.bind_some]
  rw [takes_identifier table _ (ends_append (by decide) _), Option.bind_some, readWord_append,
    Option.bind_some, identifiers, hnames, Option.bind_some, readWord_append, Option.bind_some,
    literals, hvalues, Option.bind_some, readWord_append]
  rfl

theorem takes_update (table : String) (assignments : List (String × Value)) (rowId : Int64) :
    Takes takeUpdate (Command.update table assignments rowId).text.toList
      (table, storedAssignments assignments, rowId) := by
  intro rest hrest
  have hassignments := readParts_commaList takes_assignment assignments
    (@endsList_append " WHERE ROWID = " (by decide)
      ((Number.intText rowId.toInt).toList ++ rest))
    (readAssignment_of_endsList (endsList_append (by decide) _))
  have hrowId : takeInteger ((Number.intText rowId.toInt).toList ++ rest) = some (rowId, rest) := by
    rw [takeInteger, takes_integer rowId rest hrest]
  rw [toList_update]
  simp only [List.append_assoc, takeUpdate, readWord_append, Option.bind_eq_bind, Option.bind_some]
  rw [takes_identifier table _ (ends_append (by decide) _), Option.bind_some, readWord_append,
    Option.bind_some, hassignments, Option.bind_some, readWord_append, Option.bind_some, hrowId]
  rfl

/-! ### One text, one statement -/

/-- What a reader takes off one text is one thing. -/
theorem Takes.unique {r : Reader α} {text : List Char} {a a' : α} (h : Takes r text a)
    (h' : Takes r text a') : a = a' := by
  have hend : Ends [] := nofun
  have hread := (h [] hend).symm.trans (h' [] hend)
  exact congrArg Prod.fst (Option.some.inj hread)

/-- The literal of a value is that of what a store holds for it. -/
theorem literal_stored (v : Value) : (Store.stored v).literal = v.literal := by
  cases v with
  | real x =>
    rw [Store.stored]
    cases hshape : x.shape <;>
      simp [Number.Binary64.isNan, hshape, Value.literal, Value.realLiteral]
  | _ => rfl

theorem literals_stored (values : List Value) :
    literals (values.map Store.stored) = literals values := by
  rw [literals, literals, List.map_map]
  exact congrArg commaList (List.map_congr_left fun v _ => literal_stored v)

theorem map_assignment_stored (assignments : List (String × Value)) :
    (storedAssignments assignments).map assignment = assignments.map assignment := by
  rw [storedAssignments, List.map_map]
  refine List.map_congr_left fun a _ => ?_
  show identifier a.1 ++ " = " ++ (Store.stored a.2).literal = assignment a
  rw [literal_stored, assignment]

/-- Statements that add a row have one text exactly if they say the same. -/
theorem text_insert_eq_iff {table table' : String} {names names' : List String}
    {values values' : List Value} :
    (Command.insert table names values).text = (Command.insert table' names' values').text ↔
      table = table' ∧ names = names' ∧ values.map Store.stored = values'.map Store.stored := by
  constructor
  · intro htext
    have hread := takes_insert table names values
    rw [htext] at hread
    have hparts := hread.unique (takes_insert table' names' values')
    simpa only [Prod.mk.injEq] using hparts
  · intro hparts
    have hliterals : literals values = literals values' := by
      rw [← literals_stored values, hparts.2.2, literals_stored]
    rw [← String.toList_inj, toList_insert, toList_insert, hparts.1, hparts.2.1, hliterals]

/-- Statements that change a row have one text exactly if they say the same. -/
theorem text_update_eq_iff {table table' : String}
    {assignments assignments' : List (String × Value)} {rowId rowId' : Int64} :
    (Command.update table assignments rowId).text =
        (Command.update table' assignments' rowId').text ↔
      table = table' ∧ storedAssignments assignments = storedAssignments assignments' ∧
        rowId = rowId' := by
  constructor
  · intro htext
    have hread := takes_update table assignments rowId
    rw [htext] at hread
    have hparts := hread.unique (takes_update table' assignments' rowId')
    simpa only [Prod.mk.injEq] using hparts
  · intro hparts
    have hlist : assignments.map assignment = assignments'.map assignment := by
      rw [← map_assignment_stored assignments, hparts.2.1, map_assignment_stored]
    rw [← String.toList_inj, toList_update, toList_update, hparts.1, hlist, hparts.2.2]

/-- The values that are told by their literal alone: a store holds them as they are. -/
def Bare : Value → Prop
  | .null | .integer _ | .text _ | .blob _ => True
  | _ => False

theorem Bare.stored {v : Value} (h : Bare v) : Store.stored v = v := by
  cases v with
  | flag | real | timestamp => cases h
  | null | integer | text | blob => rfl

theorem map_stored_of_bare {values : List Value} (h : ∀ v ∈ values, Bare v) :
    values.map Store.stored = values :=
  (List.map_congr_left fun v hv => (h v hv).stored).trans (List.map_id values)

theorem storedAssignments_of_bare {assignments : List (String × Value)}
    (h : ∀ a ∈ assignments, Bare a.2) : storedAssignments assignments = assignments :=
  (List.map_congr_left fun a ha => congrArg (a.1, ·) (h a ha).stored).trans
    (List.map_id assignments)

/-- A statement that adds or changes a row, with such values, is read from the left for exactly
its table, columns and values, or its table, assignments and row id, whatever stands in them and
whatever follows. Two of them with one text are one statement. -/
theorem writes_readUniquely (table table' : String) (names names' : List String)
    (values values' : List Value) (assignments assignments' : List (String × Value))
    (rowId rowId' : Int64) (hvalues : ∀ v ∈ values ++ values', Bare v)
    (hassigned : ∀ a ∈ assignments ++ assignments', Bare a.2) :
    Takes takeInsert (Command.insert table names values).text.toList (table, names, values) ∧
    Takes takeUpdate (Command.update table assignments rowId).text.toList
      (table, assignments, rowId) ∧
    ((Command.insert table names values).text = (Command.insert table' names' values').text ↔
      table = table' ∧ names = names' ∧ values = values') ∧
    ((Command.update table assignments rowId).text =
        (Command.update table' assignments' rowId').text ↔
      table = table' ∧ assignments = assignments' ∧ rowId = rowId') := by
  obtain ⟨hleft, hright⟩ := List.forall_mem_append.1 hvalues
  obtain ⟨hleft', hright'⟩ := List.forall_mem_append.1 hassigned
  have hinsert := takes_insert table names values
  have hupdate := takes_update table assignments rowId
  rw [map_stored_of_bare hleft] at hinsert
  rw [storedAssignments_of_bare hleft'] at hupdate
  refine ⟨hinsert, hupdate, ?_, ?_⟩
  · rw [text_insert_eq_iff, map_stored_of_bare hleft, map_stored_of_bare hright]
  · rw [text_update_eq_iff, storedAssignments_of_bare hleft', storedAssignments_of_bare hright']

/-- Quotes, commas and brackets in names and values shift no boundary. -/
theorem writes_readUniquely_quotes :
    let values : List Value := [.text "', NULL, '", .null]
    let values' : List Value := [.text "'", .null, .text "'"]
    let assignments : List (String × Value) := [("a\" = 1, \"b", .blob [0x27, 0xff])]
    (∀ v ∈ values ++ values', Bare v) ∧ (∀ a ∈ assignments ++ assignments, Bare a.2) ∧
      (Command.insert "t\" (\"" ["a", "b"] values).text ≠
        (Command.insert "t\" (\"" ["a\", \"b"] values').text ∧
      takeInsert (Command.insert "t\" (\"" ["a", "b"] values).text.toList =
        some (("t\" (\"", ["a", "b"], values), []) ∧
      takeUpdate (Command.update "t\" (\"" assignments (-7)).text.toList =
        some (("t\" (\"", assignments, -7), []) := by
  intro values values' assignments
  have hvalues : ∀ v ∈ values ++ values', Bare v := by simp [values, values', Bare]
  have hassigned : ∀ a ∈ assignments ++ assignments, Bare a.2 := by simp [assignments, Bare]
  obtain ⟨hinsert, hupdate, hiff, -⟩ := writes_readUniquely "t\" (\"" "t\" (\"" ["a", "b"]
    ["a\", \"b"] values values' assignments assignments (-7) (-7) hvalues hassigned
  refine ⟨hvalues, hassigned, fun htext => ?_, ?_, ?_⟩
  · exact absurd (hiff.1 htext).2.1 (by decide)
  · simpa using hinsert [] nofun
  · simpa using hupdate [] nofun

end SqlMaps.Sql
