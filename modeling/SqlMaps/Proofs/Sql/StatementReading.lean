import SqlMaps.Proofs.Sql.LiteralReading

/-! The library's statements are read back from their text.

Whatever names and values a statement has, its text is read as that statement, with the
values that a store holds for its literals (`read?_text`). The statements that are sent to copy
rows are told by the words they open with (`opensWith_text`). -/
namespace SqlMaps.Sql

/-! ### Lists -/

/-- What may follow a list: the end of the text, or what cannot be taken for a comma. -/
def EndsList (rest : List Char) : Prop :=
  ∀ c ∈ rest.head?, c = ')' ∨ c = ' '

theorem EndsList.ends {rest : List Char} (h : EndsList rest) : Ends rest :=
  fun c hc => .inr (h c hc)

theorem EndsList.readWord_comma {rest : List Char} (h : EndsList rest) :
    readWord ", " rest = none := by
  cases rest with
  | nil => rfl
  | cons c rest =>
    rcases h c rfl with rfl | rfl
    · rfl
    · rfl

theorem endsList_append {word : String} (h : word.toList.head?.any [')', ' '].contains = true)
    (rest : List Char) : EndsList (word.toList ++ rest) := by
  intro c hc
  cases hw : word.toList with
  | nil => simp [hw] at h
  | cons d s =>
    rw [hw] at h hc
    cases hc
    simpa using h

variable {α β : Type} {part : Reader α} {text : β → String} {value : β → α} {items : List β}

/-- Parts in a row are read one after another. -/
theorem readList_commaList (hpart : ∀ b, Takes part (text b).toList (value b)) (hne : items ≠ [])
    {rest : List Char} (hrest : EndsList rest) {most : Nat} (hmost : items.length ≤ most) :
    readList most part ((commaList (items.map text)).toList ++ rest) =
      some (items.map value, rest) := by
  induction items generalizing most with
  | nil => exact absurd rfl hne
  | cons b items ih =>
    obtain ⟨most, rfl⟩ : ∃ k, most = k + 1 := ⟨most - 1, by simp at hmost; omega⟩
    cases items with
    | nil => simp [readList, commaList, hpart b rest hrest.ends, hrest.readWord_comma]
    | cons c items =>
      have hmore : readList most part ((commaList ((c :: items).map text)).toList ++ rest) = _ :=
        ih (List.cons_ne_nil _ _) (by simpa using hmost)
      have htext : (commaList ((b :: c :: items).map text)).toList ++ rest =
          (text b).toList ++ (", ".toList ++ ((commaList ((c :: items).map text)).toList ++ rest)) := by
        simp [commaList, String.intercalate_cons_cons]
      rw [htext, readList, hpart b _ (ends_append (by decide) _)]
      simp only [Option.bind_eq_bind, Option.bind_some, readWord_append, hmore]
      rfl

/-- A list has at most one part more than its text has characters. -/
theorem length_le_commaList (texts : List String) :
    texts.length ≤ (commaList texts).toList.length + 1 := by
  induction texts with
  | nil => exact Nat.zero_le _
  | cons t texts ih =>
    cases texts with
    | nil => simp
    | cons u texts =>
      simp only [commaList, String.intercalate_cons_cons, String.toList_append, List.length_append,
        List.length_cons] at ih ⊢
      have hcomma : ", ".toList.length = 2 := rfl
      omega

theorem readCommaList_commaList (hpart : ∀ b, Takes part (text b).toList (value b))
    (hne : items ≠ []) (rest : List Char) (hrest : EndsList rest) :
    readCommaList part ((commaList (items.map text)).toList ++ rest) =
      some (items.map value, rest) := by
  refine readList_commaList hpart hne hrest ?_
  have := length_le_commaList (items.map text)
  simp only [List.length_map, List.length_append] at this ⊢
  omega

theorem readCommaList_identifiers {names : List String} (h : names ≠ []) (rest : List Char)
    (hrest : EndsList rest) :
    readCommaList readIdentifier ((identifiers names).toList ++ rest) = some (names, rest) := by
  have := readCommaList_commaList takes_identifier h rest hrest
  rwa [List.map_id'] at this

theorem readCommaList_literals {values : List Value} (h : values ≠ []) (rest : List Char)
    (hrest : EndsList rest) :
    readCommaList readLiteral ((literals values).toList ++ rest) =
      some (values.map Store.stored, rest) :=
  readCommaList_commaList takes_literal h rest hrest

theorem takes_assignment (a : String × Value) :
    Takes readAssignment (assignment a).toList (a.1, Store.stored a.2) := by
  intro rest hrest
  have htext : (assignment a).toList ++ rest =
      (identifier a.1).toList ++ (" = ".toList ++ (a.2.literal.toList ++ rest)) := by
    simp [assignment]
  rw [htext, readAssignment, takes_identifier a.1 _ (ends_append (by decide) _)]
  simp only [Option.bind_eq_bind, Option.bind_some, readWord_append, takes_literal a.2 _ hrest]
  rfl

theorem readInteger_intText (n : Int64) :
    readInteger (Number.intText n.toInt).toList = some (n, []) := by
  simp [readInteger, Number.intText, Number.read_int64]

/-! ### Statements -/

/-- The statement as it is read from its text. -/
def Command.stored : Command → Command
  | .insert name names values => .insert name names (values.map Store.stored)
  | .update name assignments id =>
    .update name (assignments.map fun a => (a.1, Store.stored a.2)) id
  | command => command

theorem readSetVersion_text (version : Int64) :
    readSetVersion (Command.setVersion version).text.toList = some (.setVersion version) := by
  have htext : (Command.setVersion version).text =
      "PRAGMA user_version = " ++ Number.intText version.toInt := rfl
  rw [htext, String.toList_append, readSetVersion, readWord_append]
  simp only [Option.bind_eq_bind, Option.bind_some, readInteger_intText]
  rfl

theorem readTableQuery_text (start finish : String) (command : String → Command) (table : String)
    (hfinish : Ends finish.toList) :
    readTableQuery start finish command (start ++ identifier table ++ finish).toList =
      some (command table) := by
  have htext : (start ++ identifier table ++ finish).toList =
      start.toList ++ ((identifier table).toList ++ (finish.toList ++ [])) := by
    simp
  rw [htext, readTableQuery, readWord_append]
  simp only [Option.bind_eq_bind, Option.bind_some]
  rw [takes_identifier table _ (by simpa using hfinish), Option.bind_some, readWord_append]
  rfl

theorem toList_copyRows (table : String) (names : List String) :
    (Command.copyRows table names).text.toList =
      ("SELECT ROWID AS " ++ rowIdAlias ++ ", ").toList ++ ((identifiers names).toList ++
        (" FROM ".toList ++ ((identifier table).toList ++ (" ORDER BY ROWID".toList ++ [])))) := by
  show ("SELECT ROWID AS " ++ rowIdAlias ++ ", " ++ identifiers names ++ " FROM " ++
    identifier table ++ " ORDER BY ROWID").toList = _
  simp only [String.toList_append, List.append_assoc, List.append_nil]

theorem readCopyRows_text {names : List String} (h : names ≠ []) (table : String) :
    readCopyRows (Command.copyRows table names).text.toList = some (.copyRows table names) := by
  rw [toList_copyRows, readCopyRows, readWord_append]
  simp only [Option.bind_eq_bind, Option.bind_some]
  rw [readCommaList_identifiers h _ (endsList_append (by decide) _), Option.bind_some,
    readWord_append, Option.bind_some, takes_identifier table _ (ends_append (by decide) _),
    Option.bind_some, readWord_append]
  rfl

theorem toList_insert (table : String) (names : List String) (values : List Value) :
    (Command.insert table names values).text.toList =
      "INSERT INTO ".toList ++ ((identifier table).toList ++ (" (".toList ++
        ((identifiers names).toList ++ (") VALUES (".toList ++
          ((literals values).toList ++ (")".toList ++ [])))))) := by
  show ("INSERT INTO " ++ identifier table ++ " (" ++ identifiers names ++ ") VALUES (" ++
    literals values ++ ")").toList = _
  simp only [String.toList_append, List.append_assoc, List.append_nil]

theorem readInsert_text {names : List String} {values : List Value} (hnames : names ≠ [])
    (hvalues : values ≠ []) (table : String) :
    readInsert (Command.insert table names values).text.toList =
      some (.insert table names (values.map Store.stored)) := by
  rw [toList_insert, readInsert, readWord_append]
  simp only [Option.bind_eq_bind, Option.bind_some]
  rw [takes_identifier table _ (ends_append (by decide) _), Option.bind_some, readWord_append,
    Option.bind_some, readCommaList_identifiers hnames _ (endsList_append (by decide) _),
    Option.bind_some, readWord_append, Option.bind_some,
    readCommaList_literals hvalues _ (endsList_append (by decide) _), Option.bind_some,
    readWord_append]
  rfl

theorem toList_update (table : String) (assignments : List (String × Value)) (rowId : Int64) :
    (Command.update table assignments rowId).text.toList =
      "UPDATE ".toList ++ ((identifier table).toList ++ (" SET ".toList ++
        ((commaList (assignments.map assignment)).toList ++ (" WHERE ROWID = ".toList ++
          (Number.intText rowId.toInt).toList)))) := by
  show ("UPDATE " ++ identifier table ++ " SET " ++ commaList (assignments.map assignment) ++
    " WHERE ROWID = " ++ Number.intText rowId.toInt).toList = _
  simp only [String.toList_append, List.append_assoc]

theorem readUpdate_text {assignments : List (String × Value)} (h : assignments ≠ [])
    (table : String) (rowId : Int64) :
    readUpdate (Command.update table assignments rowId).text.toList =
      some (.update table (assignments.map fun a => (a.1, Store.stored a.2)) rowId) := by
  rw [toList_update, readUpdate, readWord_append]
  simp only [Option.bind_eq_bind, Option.bind_some]
  rw [takes_identifier table _ (ends_append (by decide) _), Option.bind_some, readWord_append,
    Option.bind_some, readCommaList_commaList takes_assignment h _ (endsList_append (by decide) _),
    Option.bind_some, readWord_append, Option.bind_some, readInteger_intText]
  rfl

/-! ### Telling statements apart -/

/-- Two texts neither of which begins with the other. -/
abbrev Apart (s t : String) : Prop :=
  s.toList.take t.toList.length ≠ t.toList.take s.toList.length

theorem readWord_of_apart {word start : String} (h : Apart start word) (rest : List Char) :
    readWord word (start.toList ++ rest) = none := by
  rw [readWord, Option.map_eq_none_iff, Option.eq_none_iff_forall_ne_some]
  intro tail htail
  rw [Text.dropWord_eq_some_iff] at htail
  apply h
  calc start.toList.take word.toList.length
      = (start.toList ++ rest).take (min word.toList.length start.toList.length) := by
        rw [← List.take_take, List.take_left]
    _ = (word.toList ++ tail).take (min start.toList.length word.toList.length) := by
        rw [htail, Nat.min_comm]
    _ = word.toList.take start.toList.length := by rw [← List.take_take, List.take_left]

/-- The words that statements with names or values in them begin with. -/
def openStarts : List String :=
  ["PRAGMA user_version = ", "SELECT * FROM ", "SELECT COUNT(ROWID) FROM ", "SELECT ROWID FROM ",
    "SELECT ROWID AS " ++ rowIdAlias ++ ", ", "INSERT INTO ", "UPDATE "]

/-- A statement with names or values in it is none of the fixed ones. -/
theorem fixed_of_start {start : String} (h : start ∈ openStarts) {sql : String}
    {rest : List Char} (hsql : sql.toList = start.toList ++ rest) :
    fixedCommands.find? (·.text = sql) = none := by
  have hnone : ∀ start ∈ openStarts, ∀ c ∈ fixedCommands,
      start.toList.isPrefixOf c.text.toList = false := by decide +kernel
  rw [List.find?_eq_none]
  intro c hc htext
  have htext : c.text = sql := by simpa using htext
  have := hnone start h c hc
  rw [htext, hsql, List.isPrefixOf_iff_prefix.2 (List.prefix_append ..)] at this
  cases this

theorem readSetVersion_of_apart {start : String} (h : Apart start "PRAGMA user_version = ")
    (rest : List Char) : readSetVersion (start.toList ++ rest) = none := by
  rw [readSetVersion, readWord_of_apart h]
  rfl

theorem readTableQuery_of_apart {start word : String} (h : Apart start word) (rest : List Char)
    (finish : String) (command : String → Command) :
    readTableQuery word finish command (start.toList ++ rest) = none := by
  rw [readTableQuery, readWord_of_apart h]
  rfl

theorem readCopyRows_of_apart {start : String}
    (h : Apart start ("SELECT ROWID AS " ++ rowIdAlias ++ ", ")) (rest : List Char) :
    readCopyRows (start.toList ++ rest) = none := by
  rw [readCopyRows, readWord_of_apart h]
  rfl

theorem readInsert_of_apart {start : String} (h : Apart start "INSERT INTO ") (rest : List Char) :
    readInsert (start.toList ++ rest) = none := by
  rw [readInsert, readWord_of_apart h]
  rfl

/-- The statements that have a text of their own: lists in them are not empty. -/
def Command.Complete : Command → Prop
  | .insert _ names values => names ≠ [] ∧ values ≠ []
  | .update _ assignments _ => assignments ≠ []
  | .copyRows _ names => names ≠ []
  | _ => True

theorem read?_setVersion (version : Int64) :
    Command.read? (Command.setVersion version).text = some (.setVersion version) := by
  have hstart : (Command.setVersion version).text.toList =
      "PRAGMA user_version = ".toList ++ (Number.intText version.toInt).toList :=
    String.toList_append
  rw [Command.read?, fixed_of_start (by simp [openStarts]) hstart, readSetVersion_text]
  rfl

/-- Questions about a table differ in the words before its name. -/
theorem toList_tableQuery (start table finish : String) :
    (start ++ identifier table ++ finish).toList =
      start.toList ++ ((identifier table).toList ++ finish.toList) := by
  simp only [String.toList_append, List.append_assoc]

theorem read?_columns (table : String) :
    Command.read? (Command.columns table).text = some (.columns table) := by
  have hstart : (Command.columns table).text.toList = "SELECT * FROM ".toList ++ _ :=
    toList_tableQuery "SELECT * FROM " table " LIMIT 0"
  have hread : readTableQuery "SELECT * FROM " " LIMIT 0" .columns (Command.columns table).text.toList =
      some (.columns table) :=
    readTableQuery_text "SELECT * FROM " " LIMIT 0" .columns table (by simp [Ends])
  rw [Command.read?, fixed_of_start (by simp [openStarts]) hstart, hread, hstart,
    readSetVersion_of_apart (by decide)]
  rfl

theorem read?_countRows (table : String) :
    Command.read? (Command.countRows table).text = some (.countRows table) := by
  have htext : (Command.countRows table).text = "SELECT COUNT(ROWID) FROM " ++ identifier table ++ "" :=
    String.append_empty.symm
  have hstart : (Command.countRows table).text.toList = "SELECT COUNT(ROWID) FROM ".toList ++ _ :=
    String.toList_append
  have hread := readTableQuery_text "SELECT COUNT(ROWID) FROM " "" .countRows table (by simp [Ends])
  rw [← htext] at hread
  rw [Command.read?, fixed_of_start (by simp [openStarts]) hstart, hread, hstart,
    readSetVersion_of_apart (by decide), readTableQuery_of_apart (by decide)]
  rfl

theorem read?_rowIds (table : String) :
    Command.read? (Command.rowIds table).text = some (.rowIds table) := by
  have htext : (Command.rowIds table).text = "SELECT ROWID FROM " ++ identifier table ++ "" :=
    String.append_empty.symm
  have hstart : (Command.rowIds table).text.toList = "SELECT ROWID FROM ".toList ++ _ :=
    String.toList_append
  have hread := readTableQuery_text "SELECT ROWID FROM " "" .rowIds table (by simp [Ends])
  rw [← htext] at hread
  rw [Command.read?, fixed_of_start (by simp [openStarts]) hstart, hread, hstart,
    readSetVersion_of_apart (by decide), readTableQuery_of_apart (by decide),
    readTableQuery_of_apart (by decide)]
  rfl

theorem read?_copyRows {names : List String} (h : names ≠ []) (table : String) :
    Command.read? (Command.copyRows table names).text = some (.copyRows table names) := by
  have hstart := toList_copyRows table names
  rw [Command.read?, fixed_of_start (by simp [openStarts]) hstart, readCopyRows_text h, hstart,
    readSetVersion_of_apart (by decide), readTableQuery_of_apart (by decide),
    readTableQuery_of_apart (by decide), readTableQuery_of_apart (by decide)]
  rfl

theorem read?_insert {names : List String} {values : List Value} (hnames : names ≠ [])
    (hvalues : values ≠ []) (table : String) :
    Command.read? (Command.insert table names values).text =
      some (.insert table names (values.map Store.stored)) := by
  have hstart := toList_insert table names values
  rw [Command.read?, fixed_of_start (by simp [openStarts]) hstart, readInsert_text hnames hvalues, hstart,
    readSetVersion_of_apart (by decide), readTableQuery_of_apart (by decide),
    readTableQuery_of_apart (by decide), readTableQuery_of_apart (by decide),
    readCopyRows_of_apart (by decide)]
  rfl

theorem read?_update {assignments : List (String × Value)} (h : assignments ≠ [])
    (table : String) (rowId : Int64) :
    Command.read? (Command.update table assignments rowId).text =
      some (.update table (assignments.map fun a => (a.1, Store.stored a.2)) rowId) := by
  have hstart := toList_update table assignments rowId
  rw [Command.read?, fixed_of_start (by simp [openStarts]) hstart, readUpdate_text h, hstart,
    readSetVersion_of_apart (by decide), readTableQuery_of_apart (by decide),
    readTableQuery_of_apart (by decide), readTableQuery_of_apart (by decide),
    readCopyRows_of_apart (by decide), readInsert_of_apart (by decide)]
  rfl

theorem read?_fixed {c : Command} (h : c ∈ fixedCommands) : Command.read? c.text = some c := by
  have hall : ∀ c ∈ fixedCommands, Command.read? c.text = some c := by decide +kernel
  exact hall c h

theorem read?_readVersion : Command.read? Command.readVersion.text = some .readVersion :=
  read?_fixed (by simp [fixedCommands])

theorem read?_tableNames : Command.read? Command.tableNames.text = some .tableNames :=
  read?_fixed (by simp [fixedCommands])

/-- Every statement with a text of its own is read back, with the values that a store
holds for its literals. -/
theorem read?_text {c : Command} (h : c.Complete) : Command.read? c.text = some c.stored := by
  cases c with
  | begin mode => exact read?_fixed (by cases mode <;> simp [fixedCommands, TransactionMode.all])
  | commit => exact read?_fixed (by simp [fixedCommands])
  | rollback => exact read?_fixed (by simp [fixedCommands])
  | readVersion => exact read?_readVersion
  | setVersion version => exact read?_setVersion version
  | vacuum => exact read?_fixed (by simp [fixedCommands])
  | tableNames => exact read?_tableNames
  | columns table => exact read?_columns table
  | countRows table => exact read?_countRows table
  | rowIds table => exact read?_rowIds table
  | copyRows table names => exact read?_copyRows h table
  | insert table names values => exact read?_insert h.1 h.2 table
  | update table assignments rowId => exact read?_update h table rowId

/-! ### The words that statements open with -/

/-- Whether a statement opens with the words. -/
def opensWith (words sql : String) : Bool :=
  words.toList.isPrefixOf sql.toList

/-- The words that a statement opens with: all of it, or what stands before the first name. -/
def Command.opening : Command → String
  | .setVersion _ => "PRAGMA user_version = "
  | .columns _ => "SELECT * FROM "
  | .countRows _ => "SELECT COUNT(ROWID) FROM "
  | .rowIds _ => "SELECT ROWID FROM "
  | .copyRows .. => "SELECT ROWID AS " ++ rowIdAlias ++ ", "
  | .insert .. => "INSERT INTO "
  | .update .. => "UPDATE "
  | command => command.text

theorem Command.toList_text : (command : Command) →
    ∃ rest, command.text.toList = command.opening.toList ++ rest
  | .setVersion _ | .countRows _ | .rowIds _ => ⟨_, String.toList_append⟩
  | .columns table => ⟨_, by
      show ("SELECT * FROM " ++ identifier table ++ " LIMIT 0").toList = _
      rw [String.toList_append, String.toList_append, List.append_assoc]
      rfl⟩
  | .copyRows table names => ⟨_, toList_copyRows table names⟩
  | .insert table names values => ⟨_, toList_insert table names values⟩
  | .update table assignments rowId => ⟨_, toList_update table assignments rowId⟩
  | .begin _ | .commit | .rollback | .readVersion | .vacuum | .tableNames =>
    ⟨[], (List.append_nil _).symm⟩

/-- The openings of the statements that are sent to copy rows. -/
def copyingStarts : List String :=
  ["SELECT ROWID FROM ", "SELECT ROWID AS " ++ rowIdAlias ++ ", ", "INSERT INTO ", "UPDATE "]

theorem Command.opening_mem (command : Command) :
    command.opening ∈ openStarts ++ fixedCommands.map Command.text := by
  have hfixed (c : Command) (hc : c ∈ fixedCommands) :
      c.text ∈ openStarts ++ fixedCommands.map text :=
    List.mem_append_right _ (List.mem_map_of_mem hc)
  cases command with
  | begin mode =>
    exact hfixed (.begin mode) (by cases mode <;> simp [fixedCommands, TransactionMode.all])
  | commit => exact hfixed .commit (by simp [fixedCommands])
  | rollback => exact hfixed .rollback (by simp [fixedCommands])
  | readVersion => exact hfixed .readVersion (by simp [fixedCommands])
  | vacuum => exact hfixed .vacuum (by simp [fixedCommands])
  | tableNames => exact hfixed .tableNames (by simp [fixedCommands])
  | _ =>
    unfold opening
    exact List.mem_append_left _ (by simp [openStarts])

/-- A statement of the library's own opens with such words only if they are its opening. -/
theorem opensWith_text {words : String} (h : words ∈ copyingStarts) (command : Command) :
    opensWith words command.text = decide (command.opening = words) := by
  have hapart : ∀ words ∈ copyingStarts, ∀ start ∈ openStarts ++ fixedCommands.map Command.text,
      start ≠ words → Apart start words := by decide +kernel
  obtain ⟨rest, htext⟩ := command.toList_text
  rw [opensWith, htext]
  by_cases hopening : command.opening = words
  · rw [hopening, List.isPrefixOf_iff_prefix.2 (List.prefix_append ..)]
    simp
  · have hnone := readWord_of_apart (hapart words h _ command.opening_mem hopening) rest
    rw [decide_eq_false hopening, Bool.eq_false_iff, Ne, List.isPrefixOf_iff_prefix]
    rintro ⟨tail, htail⟩
    rw [← htail, readWord_append] at hnone
    cases hnone

end SqlMaps.Sql
