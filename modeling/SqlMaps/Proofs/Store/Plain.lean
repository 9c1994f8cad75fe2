import SqlMaps.Proofs.Engine.RowIds
import SqlMaps.Store.Order

/-! Tables of the store whose ids are nothing but ids.

No column of a plain table stands for the row id, and none has its name. A row that is added
comes last (`Table.Plain.insert`), and a row that is written over keeps its id and its place
(`Table.Plain.update`). -/
namespace SqlMaps.Store

/-- A table whose ids are nothing but ids. -/
structure Table.Plain (t : Table) : Prop where
  names : (t.columns.map Column.name).Nodup
  columns : ∀ c ∈ t.columns, c.isRowId = false ∧
    Text.sameLetters c.name.toList "rowid".toList = false ∧ Store.stored c.initial = c.initial
  sorted : t.rows.Pairwise (·.id < ·.id)
  positive : ∀ row ∈ t.rows, 0 < row.id
  widths : ∀ row ∈ t.rows, row.values.length = t.columns.length
  stored : ∀ row ∈ t.rows, ∀ v ∈ row.values, Store.stored v = v

/-- A row as it is seen from outside. -/
def Row.shown (row : Row) : Relational.Row := ⟨row.id, row.values⟩

/-- A table as it is seen from outside. -/
def Table.shown (t : Table) : Relational.Table :=
  ⟨t.name, t.columns.map fun c => ⟨c.name, c.initial, c.isRowId⟩, t.rows.map Row.shown⟩

theorem columnNames_shown (t : Table) : t.shown.columnNames = t.columns.map Column.name := by
  simp [Table.shown, Relational.Table.columnNames]

theorem valueOf_shown (t : Table) (row : Row) (column : String) :
    t.shown.valueOf row.shown column = t.valueOf row column := by
  rw [Relational.Table.valueOf, Table.valueOf, Table.position?, columnNames_shown, Row.shown]
  congr 1
  generalize row.values = values
  induction t.columns generalizing values with
  | nil => rfl
  | cons c columns ih =>
    cases values with
    | nil => simp
    | cons v values =>
      by_cases h : c.name = column
      · simp [List.findIdx?_cons, h]
      · have h' : ¬ column = c.name := fun he => h he.symm
        simp only [List.map_cons, List.zip_cons_cons, List.lookup_cons, beq_eq_false_iff_ne.2 h', ih,
          List.findIdx?_cons, h, decide_false, Bool.false_eq_true, if_false, Option.bind_map]
        rfl

theorem ids_nodup {rows : List Row} (hsorted : rows.Pairwise (·.id < ·.id)) :
    (rows.map Row.id).Nodup :=
  List.pairwise_map.2 (hsorted.imp Int64.ne_of_lt)

theorem eq_of_id {rows : List Row} (hsorted : rows.Pairwise (·.id < ·.id)) {r row : Row}
    (hr : r ∈ rows) (hrow : row ∈ rows) (hid : r.id = row.id) : r = row :=
  List.inj_on_of_nodup_map (ids_nodup hsorted) hr hrow hid

/-- Where no column has the name, a statement gets the id itself. -/
theorem Table.Plain.rowIdNamed? {t : Table} (h : t.Plain) : t.rowIdNamed? = none := by
  rw [Table.rowIdNamed?, Option.map_eq_none_iff, List.find?_eq_none]
  intro c hc
  rw [(h.columns c hc).2.1]
  exact Bool.false_ne_true

theorem Table.Plain.rowIdOf {t : Table} (h : t.Plain) (row : Row) :
    t.rowIdOf row = .integer row.id := by
  rw [Table.rowIdOf, h.rowIdNamed?]

theorem Table.Plain.ordered {t : Table} (h : t.Plain) : t.ordered = t.rows := by
  rw [Table.ordered, h.rowIdNamed?]

/-- Ids grow from one on, so there are no more rows than ids. -/
theorem length_le_of_sorted {rows : List Row} {k : Int} (hk : k ≤ Int64.maxValue.toInt)
    (hsorted : rows.Pairwise (·.id < ·.id)) (hlow : ∀ row ∈ rows, k < row.id.toInt) :
    k + rows.length ≤ Int64.maxValue.toInt := by
  induction rows generalizing k with
  | nil => simpa using hk
  | cons row rows ih =>
    rw [List.pairwise_cons] at hsorted
    have hmax := Int64.le_iff_toInt_le.1 row.id.le_maxValue
    have hrest := ih hmax hsorted.2 fun r hr => Int64.lt_iff_toInt_lt.1 (hsorted.1 r hr)
    have hrow := hlow row (List.mem_cons_self ..)
    rw [List.length_cons]
    omega

theorem Table.Plain.toInt_length {t : Table} (h : t.Plain) :
    (Int64.ofNat t.rows.length).toInt = t.rows.length := by
  have hpositive : ∀ row ∈ t.rows, 0 < row.id.toInt := fun row hrow =>
    Int64.lt_iff_toInt_lt.1 (h.positive row hrow)
  have hlength := length_le_of_sorted (by decide) h.sorted hpositive
  rw [Int64.toInt_maxValue] at hlength
  exact Int64.toInt_ofNat_of_lt (by omega)

/-- The rows of a table that a statement may leave. -/
theorem Table.Plain.withRows {t : Table} (h : t.Plain) {rows : List Row}
    (hsorted : rows.Pairwise (·.id < ·.id))
    (hrows : ∀ row ∈ rows, 0 < row.id ∧ row.values.length = t.columns.length ∧
      ∀ v ∈ row.values, Store.stored v = v) : Table.Plain { t with rows } where
  names := h.names
  columns := h.columns
  sorted := hsorted
  positive row hrow := (hrows row hrow).1
  widths row hrow := (hrows row hrow).2.1
  stored row hrow := (hrows row hrow).2.2

theorem Table.Plain.noId {t : Table} (h : t.Plain) (values : List Value) :
    (t.columns.zip values).find? (fun a => a.1.isRowId) = none := by
  rw [List.find?_eq_none]
  rintro ⟨c, v⟩ hmem
  rw [(h.columns c (List.of_mem_zip hmem).1).1]
  exact Bool.false_ne_true

/-- No column stands for the id. -/
theorem Table.Plain.withId {t : Table} (h : t.Plain) (id : Int64) {values : List Value}
    (hwidth : values.length = t.columns.length) : t.withId id values = values := by
  have hsnd : t.withId id values = (t.columns.zip values).map Prod.snd := by
    refine List.map_congr_left ?_
    rintro ⟨c, v⟩ hmem
    exact if_neg (by simp [(h.columns c (List.of_mem_zip hmem).1).1])
  rw [hsnd, List.map_snd_zip (Nat.le_of_eq hwidth)]

/-! ### Adding a row -/

/-- The last row has the highest id. -/
theorem Table.Plain.le_getLast {t : Table} (h : t.Plain) {last : Row}
    (hlast : t.rows.getLast? = some last) : last ∈ t.rows ∧ ∀ row ∈ t.rows, row.id ≤ last.id := by
  obtain ⟨before, hrows⟩ := List.getLast?_eq_some_iff.1 hlast
  have hsorted := hrows ▸ h.sorted
  rw [hrows]
  refine ⟨List.mem_append_right before (List.mem_singleton_self last), fun row hrow => ?_⟩
  rcases List.mem_append.1 hrow with hrow | hrow
  · exact Int64.le_of_lt
      ((List.pairwise_append.1 hsorted).2.2 row hrow last (List.mem_singleton_self last))
  · exact List.mem_singleton.1 hrow ▸ Int64.le_refl _

/-- The next id is the one above it, while there is one left. -/
theorem Table.Plain.toInt_nextId {t : Table} (h : t.Plain) {last : Row}
    (hlast : t.rows.getLast? = some last) (hroom : last.id ≠ Int64.maxValue) :
    t.nextId.toInt = last.id.toInt + 1 := by
  have hne : last.id.toInt ≠ 2 ^ 63 - 1 := fun he => hroom (Int64.toInt_inj.1 he)
  have hmax := last.id.toInt_lt
  have hpositive : 0 < last.id.toInt := by
    simpa using Int64.lt_iff_toInt_lt.1 (h.positive last (h.le_getLast hlast).1)
  rw [Table.nextId, hlast, Int64.toInt_add, Int64.toInt_one, Int.bmod_eq_of_le] <;> omega

/-- The next id is above all others, while there is one left. -/
theorem Table.Plain.lt_nextId {t : Table} (h : t.Plain)
    (hroom : ∀ row, t.rows.getLast? = some row → row.id ≠ Int64.maxValue) :
    0 < t.nextId ∧ ∀ row ∈ t.rows, row.id < t.nextId := by
  cases hlast : t.rows.getLast? with
  | none =>
    rw [Table.nextId, hlast, List.getLast?_eq_none_iff.1 hlast]
    exact ⟨by decide, by simp⟩
  | some last =>
    obtain ⟨hmem, hall⟩ := h.le_getLast hlast
    have hnext := h.toInt_nextId hlast (hroom last hlast)
    have hstep : last.id < t.nextId := Int64.lt_iff_toInt_lt.2 (by omega)
    exact ⟨Int64.lt_trans (h.positive last hmem) hstep,
      fun row hrow => Int64.lt_of_le_of_lt (hall row hrow) hstep⟩

/-- The next id is one above the largest. -/
theorem Table.Plain.next_nextId {t : Table} (h : t.Plain)
    (hroom : ∀ row, t.rows.getLast? = some row → row.id ≠ Int64.maxValue) :
    Relational.Next t.shown.rows t.nextId := by
  cases hlast : t.rows.getLast? with
  | none => exact .inl (by simp [Table.shown, List.getLast?_eq_none_iff.1 hlast])
  | some last =>
    obtain ⟨hmem, hall⟩ := h.le_getLast hlast
    refine .inr ⟨last.shown, List.mem_map_of_mem hmem, fun r hr => ?_,
      h.toInt_nextId hlast (hroom last hlast)⟩
    obtain ⟨row, hrow, rfl⟩ := List.mem_map.1 hr
    exact hall row hrow

/-- A row with the highest id is the last one. -/
theorem placeRow_of_lt {row : Row} {rows : List Row} (h : ∀ r ∈ rows, r.id < row.id) :
    Table.placeRow row rows = rows ++ [row] := by
  induction rows with
  | nil => rfl
  | cons r rows ih =>
    rw [Table.placeRow, if_neg (Int64.lt_asymm (h r (List.mem_cons_self ..))),
      ih fun r hr => h r (List.mem_cons_of_mem _ hr), List.cons_append]

/-- A row that is added has the next id, and is the last one. -/
theorem Table.Plain.addRow {t t' : Table} (h : t.Plain) {values : List Value}
    (hwidth : values.length = t.columns.length) (hbelow : ∀ row ∈ t.rows, row.id < t.nextId)
    (hadd : t.addRow values = .ok t') :
    t' = { t with rows := t.rows ++ [⟨t.nextId, values⟩] } := by
  have hnew : t.hasId t.nextId = false := by
    rw [Table.hasId, List.any_eq_false]
    intro row hrow he
    exact Int64.ne_of_lt (hbelow row hrow) (of_decide_eq_true he)
  have hplaced : Table.placeRow ⟨t.nextId, values⟩ t.rows = t.rows ++ [⟨t.nextId, values⟩] :=
    placeRow_of_lt hbelow
  rw [Table.addRow, h.noId] at hadd
  cases hmissing : t.missing? values with
  | some column =>
    simp only [hmissing] at hadd
    cases hadd
  | none =>
    simp only [hmissing] at hadd
    change (if t.hasId t.nextId = true then _ else _) = _ at hadd
    rw [hnew, if_neg Bool.false_ne_true, h.withId _ hwidth, hplaced] at hadd
    exact (Except.ok.inj hadd).symm

/-- The row that a statement adds holds what it is given, and else what columns begin with. -/
theorem Table.Plain.insert {t t' : Table} (h : t.Plain) {columns : List String}
    {values : List Value}
    (hroom : ∀ row, t.rows.getLast? = some row → row.id ≠ Int64.maxValue)
    (hinsert : t.insert columns values = .ok t') :
    t' = { t with rows := t.rows ++
      [⟨t.nextId, t.shown.filled (columns.zip (values.map Store.stored))⟩] } ∧ t'.Plain := by
  have hfilled : (t.columns.map fun column =>
      ((columns.zip (values.map Store.stored)).lookup column.name).getD
        (if column.isRowId then .null else column.initial)) =
      t.shown.filled (columns.zip (values.map Store.stored)) := by
    rw [Relational.Table.filled, Table.shown, List.map_map]
    refine List.map_congr_left fun c hc => ?_
    rw [(h.columns c hc).1]
    rfl
  have hadd : t.addRow (t.shown.filled (columns.zip (values.map Store.stored))) = .ok t' := by
    rw [← hfilled]
    rw [Table.insert] at hinsert
    split at hinsert
    · cases hinsert
    · cases hfind : columns.find? fun column => (t.position? column).isNone with
      | some column =>
        rw [hfind] at hinsert
        cases hinsert
      | none =>
        rw [hfind] at hinsert
        exact hinsert
  have hwidth : (t.shown.filled (columns.zip (values.map Store.stored))).length =
      t.columns.length := by simp [Relational.Table.filled, Table.shown]
  obtain ⟨hpositive, hbelow⟩ := h.lt_nextId hroom
  refine ⟨h.addRow hwidth hbelow hadd, h.addRow hwidth hbelow hadd ▸ h.withRows ?_ ?_⟩
  · rw [List.pairwise_append]
    refine ⟨h.sorted, List.pairwise_singleton _ _, fun row hrow last hlast => ?_⟩
    rw [List.mem_singleton.1 hlast]
    exact hbelow row hrow
  · intro row hrow
    rcases List.mem_append.1 hrow with hrow | hrow
    · exact ⟨h.positive row hrow, h.widths row hrow, h.stored row hrow⟩
    · rw [List.mem_singleton.1 hrow]
      refine ⟨hpositive, hwidth, fun v hv => ?_⟩
      obtain ⟨_, hshown, rfl⟩ := List.mem_map.1 hv
      obtain ⟨c, hc, rfl⟩ := List.mem_map.1 hshown
      refine Relational.stored_getD_lookup (fun a ha => ?_) (h.columns c hc).2.2
      obtain ⟨w, -, hw⟩ := List.mem_map.1 (List.of_mem_zip ha).2
      rw [← hw, Relational.stored_stored]

/-! ### Writing over a row -/

/-- The values of a row by their positions are its values by names. -/
theorem map_zip_eq_map_lookup (g : Column → Value → Value) {columns : List Column}
    (hnames : (columns.map Column.name).Nodup) {values : List Value}
    (hwidth : values.length = columns.length) :
    (columns.zip values).map (fun a => g a.1 a.2) = columns.map fun c =>
      g c ((((columns.map Column.name).zip values).lookup c.name).getD .null) := by
  induction columns generalizing values with
  | nil => rfl
  | cons c columns ih =>
    cases values with
    | nil => cases hwidth
    | cons v values =>
      rw [List.map_cons, List.nodup_cons] at hnames
      have hrest := ih hnames.2 (Nat.succ.inj hwidth)
      simp only [List.zip_cons_cons, List.map_cons, List.lookup_cons_self, Option.getD_some, hrest]
      congr 1
      refine List.map_congr_left fun c' hc' => ?_
      have hne : c'.name ≠ c.name := fun he => hnames.1 (he ▸ List.mem_map_of_mem hc')
      rw [List.lookup_cons, beq_eq_false_iff_ne.2 hne]

/-- A row in front of all others. -/
theorem placeRow_of_gt {row : Row} {rows : List Row} (h : ∀ r ∈ rows, row.id < r.id) :
    Table.placeRow row rows = row :: rows := by
  cases rows with
  | nil => rfl
  | cons r rows => rw [Table.placeRow, if_pos (h r (List.mem_cons_self ..))]

/-- A row that is put back among the others is in its old place. -/
theorem placeRow_filter {row : Row} {rows : List Row} (hsorted : rows.Pairwise (·.id < ·.id))
    (hid : ∃ r ∈ rows, r.id = row.id) :
    Table.placeRow row (rows.filter (·.id ≠ row.id)) =
      rows.map fun r => if r.id = row.id then row else r := by
  induction rows with
  | nil => obtain ⟨r, hr, -⟩ := hid; cases hr
  | cons r rows ih =>
    rw [List.pairwise_cons] at hsorted
    by_cases hr : r.id = row.id
    · have habove : ∀ r' ∈ rows, row.id < r'.id := fun r' hr' => hr ▸ hsorted.1 r' hr'
      have hne : ∀ r' ∈ rows, r'.id ≠ row.id := fun r' hr' =>
        (Int64.ne_of_lt (habove r' hr')).symm
      have hfilter : (r :: rows).filter (·.id ≠ row.id) = rows := by
        rw [List.filter_cons_of_neg (by simp [hr]), List.filter_eq_self]
        exact fun r' hr' => decide_eq_true (hne r' hr')
      have hmap : rows.map (fun r => if r.id = row.id then row else r) = rows :=
        (List.map_congr_left fun r' hr' => if_neg (hne r' hr')).trans (List.map_id rows)
      rw [hfilter, placeRow_of_gt habove, List.map_cons, if_pos hr, hmap]
    · obtain ⟨r', hmem, hr'⟩ := hid
      have hin : r' ∈ rows := (List.mem_cons.1 hmem).resolve_left fun he => hr (he ▸ hr')
      have hbelow : ¬ row.id < r.id := Int64.lt_asymm (hr' ▸ hsorted.1 r' hin)
      rw [List.filter_cons_of_pos (by simp [hr]), Table.placeRow, if_neg hbelow,
        ih hsorted.2 ⟨r', hin, hr'⟩, List.map_cons, if_neg hr]

/-- The values of a row after others were written over them. -/
def Table.written (t : Table) (given : List (String × Value)) (row : Row) : List Value :=
  (t.columns.zip row.values).map fun (column, value) =>
    ((given.map fun (name, v) => (name, Store.stored v)).lookup column.name).getD value

/-- The table after values were written over those of the row with the id. -/
def Table.overwriting (t : Table) (id : Int64) (given : List (String × Value)) : Table :=
  { t with rows := t.rows.map fun row => if row.id = id then ⟨row.id, t.written given row⟩ else row }

theorem Table.Plain.written_length {t : Table} (h : t.Plain) {row : Row} (hrow : row ∈ t.rows)
    (given : List (String × Value)) : (t.written given row).length = t.columns.length := by
  rw [Table.written, List.length_map, List.length_zip, h.widths row hrow, Nat.min_self]

theorem Table.Plain.shown_overwriting {t : Table} (h : t.Plain) (id : Int64)
    (given : List (String × Value)) :
    (t.overwriting id given).shown =
      t.shown.withRows (t.shown.overwriting id (Relational.asStored given)) := by
  rw [Relational.Table.overwriting, Relational.Table.withRows, Table.shown, Table.overwriting,
    Table.shown, List.map_map, List.map_map]
  congr 1
  refine List.map_congr_left fun row hrow => ?_
  by_cases hid : row.id = id
  · have hvalues : t.written given row = t.columns.map fun c =>
        ((Relational.asStored given).lookup c.name).getD (t.shown.valueOf row.shown c.name) := by
      refine (map_zip_eq_map_lookup (fun c v => ((Relational.asStored given).lookup c.name).getD v)
        h.names (h.widths row hrow)).trans (List.map_congr_left fun c _ => ?_)
      rw [Relational.Table.valueOf, columnNames_shown]
      rfl
    simp [hid, Row.shown, hvalues, Relational.Table.overwritten, Table.shown]
  · simp [hid, Row.shown]

theorem Table.Plain.overwriting {t : Table} (h : t.Plain) (id : Int64)
    (given : List (String × Value)) : (t.overwriting id given).Plain := by
  have hids : ∀ row : Row,
      (if row.id = id then ⟨row.id, t.written given row⟩ else row : Row).id = row.id := fun row => by
    split <;> rfl
  refine h.withRows ?_ fun row hrow => ?_
  · rw [List.pairwise_map]
    exact h.sorted.imp fun {a b} hab => by rwa [hids a, hids b]
  · obtain ⟨row, hrow', rfl⟩ := List.mem_map.1 hrow
    split
    · refine ⟨h.positive row hrow', h.written_length hrow' given, fun v hv => ?_⟩
      obtain ⟨⟨c, w⟩, hmem, rfl⟩ := List.mem_map.1 hv
      refine Relational.stored_getD_lookup (fun a ha => ?_) (h.stored row hrow' w (List.of_mem_zip hmem).2)
      obtain ⟨b, -, rfl⟩ := List.mem_map.1 ha
      exact Relational.stored_stored b.2
    · exact ⟨h.positive row hrow', h.widths row hrow', h.stored row hrow'⟩

/-- A row of a plain table keeps its id and its place when it is written over. -/
theorem Table.Plain.updateRow {t t' : Table} (h : t.Plain) {given : List (String × Value)}
    {row : Row} (hrow : row ∈ t.rows) (hupdate : t.updateRow given row = .ok t') :
    t' = t.overwriting row.id given := by
  have hwidth := h.written_length hrow given
  rw [Table.updateRow, ← Table.written, h.noId] at hupdate
  cases hmissing : t.missing? (t.written given row) with
  | some column =>
    simp only [hmissing] at hupdate
    cases hupdate
  | none =>
    simp only [hmissing] at hupdate
    change (if (t.rows.filter (·.id ≠ row.id)).any (·.id = row.id) = true then _ else _) = _
      at hupdate
    have hothers : (t.rows.filter (·.id ≠ row.id)).any (·.id = row.id) = false := by
      simp [List.any_filter]
    rw [hothers, if_neg Bool.false_ne_true, h.withId _ hwidth] at hupdate
    have hplaced : Table.placeRow ⟨row.id, t.written given row⟩ (t.rows.filter (·.id ≠ row.id)) =
        t.rows.map fun r => if r.id = row.id then ⟨row.id, t.written given row⟩ else r :=
      placeRow_filter h.sorted ⟨row, hrow, rfl⟩
    rw [hplaced] at hupdate
    rw [← Except.ok.inj hupdate, Table.overwriting]
    congr 1
    refine List.map_congr_left fun r hr => ?_
    by_cases hid : r.id = row.id
    · rw [if_pos hid, if_pos hid, hid, eq_of_id h.sorted hr hrow hid]
    · rw [if_neg hid, if_neg hid]

/-- Without a row of the id nothing is written. -/
theorem Table.overwriting_of_none {t : Table} {id : Int64} (h : ∀ row ∈ t.rows, row.id ≠ id)
    (given : List (String × Value)) : t.overwriting id given = t := by
  have hrows : (t.rows.map fun row =>
      if row.id = id then (⟨row.id, t.written given row⟩ : Row) else row) = t.rows :=
    (List.map_congr_left fun row hrow => if_neg (h row hrow)).trans (List.map_id _)
  rw [Table.overwriting, hrows]

/-- An id belongs to one row at most. -/
theorem filter_id {rows : List Row} (hsorted : rows.Pairwise (·.id < ·.id)) (id : Int64) :
    ((∀ row ∈ rows, row.id ≠ id) ∧ rows.filter (·.id = id) = []) ∨
      ∃ row ∈ rows, row.id = id ∧ rows.filter (·.id = id) = [row] := by
  have hin : ∀ row ∈ rows.filter (·.id = id), row ∈ rows ∧ row.id = id := fun row hrow => by
    rw [List.mem_filter] at hrow
    exact ⟨hrow.1, of_decide_eq_true hrow.2⟩
  cases hrows : rows.filter (·.id = id) with
  | nil =>
    refine .inl ⟨fun row hrow he => ?_, rfl⟩
    exact List.filter_eq_nil_iff.1 hrows row hrow (decide_eq_true he)
  | cons row rest =>
    rw [hrows] at hin
    obtain ⟨hrow, hid⟩ := hin row (List.mem_cons_self ..)
    have hapart : (row :: rest).Pairwise (·.id < ·.id) := hrows ▸ hsorted.filter _
    have hrest : rest = [] := by
      refine List.eq_nil_iff_forall_not_mem.2 fun r hr => ?_
      have hsame := hid.trans (hin r (List.mem_cons_of_mem _ hr)).2.symm
      exact Int64.ne_of_lt ((List.pairwise_cons.1 hapart).1 r hr) hsame
    exact .inr ⟨row, hrow, hid, by rw [hrest]⟩

/-- An UPDATE that succeeds has gone through the rows with the id. -/
theorem Table.Plain.foldlM_update {t t' : Table} (h : t.Plain) {given : List (String × Value)}
    {id : Int64} {n : Nat} (hupdate : t.update given id = .ok (n, t')) :
    n = (t.rows.filter (·.id = id)).length ∧
      (t.rows.filter (·.id = id)).foldlM (fun t row => t.updateRow given row) t = .ok t' := by
  have hfilter : t.rows.filter (fun row => Table.isNumber id (t.rowIdOf row)) =
      t.rows.filter (·.id = id) :=
    List.filter_congr fun row _ => by rw [h.rowIdOf row]; rfl
  rw [Table.update, hfilter] at hupdate
  split at hupdate
  · cases hupdate
  · dsimp only at hupdate
    cases hrest : (t.rows.filter (·.id = id)).foldlM (fun t row => t.updateRow given row) t with
    | error e =>
      rw [hrest] at hupdate
      cases hupdate
    | ok u =>
      rw [hrest] at hupdate
      cases hupdate
      exact ⟨rfl, rfl⟩

/-- Writing over the rows with an id writes over one row at most. -/
theorem Table.Plain.update {t t' : Table} (h : t.Plain) {given : List (String × Value)}
    {id : Int64} {n : Nat} (hupdate : t.update given id = .ok (n, t')) :
    n = t.rows.countP (·.id = id) ∧ t' = t.overwriting id given := by
  obtain ⟨hcount, hfold⟩ := h.foldlM_update hupdate
  refine ⟨hcount.trans List.countP_eq_length_filter.symm, ?_⟩
  rcases filter_id h.sorted id with ⟨hnone, hrows⟩ | ⟨row, hrow, rfl, hrows⟩
  · rw [hrows] at hfold
    cases hfold
    exact (t.overwriting_of_none hnone given).symm
  · rw [hrows, List.foldlM_cons] at hfold
    cases hone : t.updateRow given row with
    | error e =>
      rw [hone] at hfold
      cases hfold
    | ok u =>
      rw [hone] at hfold
      cases hfold
      exact h.updateRow hrow hone

end SqlMaps.Store
