import SqlMaps.Proofs.Engine.Tables

/-! Engines that number the rows of a table.

Where no column is the row id, a row that is added gets the id one above the largest (`Next`), so one
that no row has. `Numbers` are the laws of the ids: which one an INSERT gives, how many rows an
UPDATE finds under one, and that a table lists those of its rows. -/
namespace SqlMaps.Relational
variable {σ : Type} {e : Engine σ} {rows : List Row} {id : Int64}

/-- The id is one above the largest. The first row of a table may get any. -/
def Next (rows : List Row) (id : Int64) : Prop :=
  rows = [] ∨ ∃ last ∈ rows, (∀ r ∈ rows, r.id ≤ last.id) ∧ id.toInt = last.id.toInt + 1

/-- No row has the id yet. -/
theorem Next.fresh (h : Next rows id) : id ∉ rows.map Row.id := by
  intro hmem
  obtain ⟨row, hrow, rfl⟩ := List.mem_map.1 hmem
  rcases h with rfl | ⟨last, -, hall, hnext⟩
  · cases hrow
  · have hle := Int64.le_iff_toInt_le.1 (hall row hrow)
    omega

theorem countP_id_pos_iff : 0 < rows.countP (·.id = id) ↔ id ∈ rows.map Row.id := by
  rw [List.countP_pos_iff, List.mem_map]
  simp only [decide_eq_true_eq]

/-- No column of the table is the row id under a name of its own. -/
def Table.NoAlias (t : Table) : Prop :=
  ∀ c ∈ t.columns, c.isId = false

/-- The laws of row ids. -/
structure Tabular.Numbers (v : Tabular e) : Prop where
  /-- An INSERT that succeeds adds one last row, under the next id. -/
  insert : ∀ {s s' sql name columns values n t}, v.sound s →
    Sql.Command.read? sql = some (.insert name columns values) → e.execute sql s = (.ok n, s') →
    t ∈ v.tables s → t.name = name → t.NoAlias →
    ∃ id, Next t.rows id ∧ v.Shows (replace (t.withRows
      (t.rows ++ [⟨id, t.filled (columns.zip (values.map Store.stored))⟩])) (v.tables s)) s'
  /-- An UPDATE that succeeds says how many rows had the id. -/
  update : ∀ {s s' sql name given id n t}, v.sound s →
    Sql.Command.read? sql = some (.update name given id) → e.execute sql s = (.ok n, s') →
    t ∈ v.tables s → t.name = name → n = t.rows.countP (·.id = id)
  /-- The ids of a table are those of its rows. -/
  rowIds : ∀ {s s' sql name rows t}, v.sound s →
    Sql.Command.read? sql = some (.rowIds name) → e.query sql s = (.ok rows, s') →
    t ∈ v.tables s → t.name = name →
    ∃ column, rows = ⟨[column], t.rows.map fun row => [.integer row.id]⟩

end SqlMaps.Relational
