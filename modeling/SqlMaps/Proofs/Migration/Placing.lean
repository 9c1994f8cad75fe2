import SqlMaps.Proofs.Migration.Placement

/-! Rows are put where the policy says.

Copying a row puts it among those that the new table has by now, and enters in the account what has
become of it (`gives_placeRow_puts`); the rows of a table are put one after another
(`gives_placeAll_puts`). -/
namespace SqlMaps.Migrator
open Attempt Relational
variable {σ α : Type} {m : Migrator σ} {vo : Tabular m.old.engine} {vn : Tabular m.new.engine}
  {us ts : List Table} {v v' : Int64} {past : List Placed}

/-! ### The account -/

/-- An account between two versions that counts what became of rows. -/
structure Counts (v v' : Int64) (past : List Placed) (r : MigrationReport) : Prop where
  oldVersion : r.oldVersion = v
  newVersion : r.newVersion = v'
  inserted : r.inserted = past.countP Placed.wasAdded
  updated : r.updated = past.countP Placed.wasUpdated
  skipped : r.skipped = past.countP Placed.wasLeft

/-- The account with one row more. -/
def enter (e : Placed) (r : MigrationReport) : MigrationReport :=
  match e.place with
  | .left => { r with skipped := r.skipped + 1 }
  | .added _ => { r with inserted := r.inserted + 1 }
  | .updated => { r with updated := r.updated + 1 }

theorem Counts.enter {r : MigrationReport} (h : Counts v v' past r) (e : Placed) :
    Counts v v' (past ++ [e]) (enter e r) := by
  obtain ⟨row, place⟩ := e
  cases place <;> constructor <;>
    simp [Migrator.enter, h.oldVersion, h.newVersion, h.inserted, h.updated, h.skipped,
      List.countP_append, List.countP_cons, Placed.wasAdded, Placed.wasUpdated, Placed.wasLeft]

/-- A migration on its way, with the account of what became of rows. -/
structure Tells (vo : Tabular m.old.engine) (vn : Tabular m.new.engine) (us ts : List Table)
    (v v' : Int64) (past : List Placed) (y : Migration σ) : Prop extends Stands vo vn us ts y where
  counts : Counts v v' past y.report

/-- What leaves the account alone. -/
theorem gives_beside {x : MigrationM σ α} {P : Migration σ → Prop} {Q : α → Migration σ → Prop}
    {B : MigrationReport → Prop} (hx : Gives P x Q) (hkept : ∀ y, (x.run y).2.report = y.report) :
    Gives (fun y => P y ∧ B y.report) x fun a y => Q a y ∧ B y.report := by
  intro y a z hy h
  have hreport : z.report = y.report := by
    rw [← hkept y, h]
  exact ⟨hx hy.1 h, hreport ▸ hy.2⟩

theorem gives_told {x : MigrationM σ α} {Q : α → Migration σ → Prop}
    (hx : Gives (Stands vo vn us ts) x Q) (hkept : ∀ y, (x.run y).2.report = y.report) :
    Gives (Tells vo vn us ts v v' past) x fun a y => Q a y ∧ Counts v v' past y.report :=
  gives_of_pre (fun hy => ⟨hy.toStands, hy.counts⟩) (gives_beside hx hkept)

theorem gives_recounted {past' : List Placed} {f : MigrationReport → MigrationReport}
    (hf : ∀ r, Counts v v' past r → Counts v v' past' (f r)) :
    Gives (Tells vo vn us ts v v' past) (account f) fun _ y => Tells vo vn us ts v v' past' y := by
  intro y u z hy h
  cases h
  exact ⟨⟨hy.old, hy.new⟩, hf _ hy.counts⟩

theorem gives_entered (e : Placed) :
    Gives (Tells vo vn us ts v v' past) (account (enter e)) fun _ y =>
      Tells vo vn us ts v v' (past ++ [e]) y :=
  gives_recounted fun _ h => h.enter e

/-- The account bears the versions. -/
theorem gives_get_bind {f : Migration σ → MigrationM σ α} {Q : α → Migration σ → Prop}
    (hf : ∀ y, y.report.oldVersion = v → y.report.newVersion = v' →
      Gives (Tells vo vn us ts v v' past) (f y) Q) :
    Gives (Tells vo vn us ts v v' past) (get >>= f) Q :=
  fun y _ _ hy h => hf y hy.counts.oldVersion hy.counts.newVersion hy h

/-! ### One row -/

/-- A write to one table leaves the account alone. -/
theorem gives_writeTold {command : Sql.Command} (t : Table) {P : Nat → List Row → Prop}
    (hwrite : ∀ s n s', vn.Shows ts s → m.new.engine.execute command.text s = (.ok n, s') →
      ∃ rows, P n rows ∧ vn.Shows (replace (t.withRows rows) ts) s') :
    Gives (Tells vo vn us ts v v' past) (m.write command) fun n y =>
      ∃ rows, P n rows ∧ Tells vo vn us (replace (t.withRows rows) ts) v v' past y := by
  refine (gives_told (gives_writeRows t hwrite) fun _ => rfl).post ?_
  rintro n y ⟨⟨rows, hrows, hy⟩, hcounts⟩
  exact ⟨rows, hrows, hy, hcounts⟩

variable (vo us) in
/-- An UPDATE writes over the row with the id, and says whether there is one. -/
theorem gives_update (hoverwrites : vn.Overwrites) (hnumbers : vn.Numbers) {t : Table} (ht : t ∈ ts)
    (halias : t.NoAlias) {given : List (String × Value)} (hgiven : given ≠ []) (id : Int64) :
    Gives (Tells vo vn us ts v v' past) (m.write (.update t.name given id)) fun n y =>
      n = t.rows.countP (·.id = id) ∧
        Tells vo vn us (replace (t.withRows (t.overwriting id (asStored given))) ts) v v' past y := by
  have hread : Sql.Command.read? (Sql.Command.update t.name given id).text =
      some (.update t.name (asStored given) id) := Sql.read?_update hgiven t.name id
  refine (gives_writeTold t (P := fun n rows => n = t.rows.countP (·.id = id) ∧
    rows = t.overwriting id (asStored given)) fun s n s' hs he => ?_).post ?_
  · have hin := hs.tables_eq ▸ ht
    obtain ⟨rows, hshows, hrows⟩ := hoverwrites hs.sound hread he hin rfl
    rw [asStored_asStored] at hrows
    exact ⟨rows, ⟨hnumbers.update hs.sound hread he hin rfl,
      hrows fun c hc hid => absurd hid (by simp [halias c hc])⟩, hs.tables_eq ▸ hshows⟩
  · rintro n y ⟨_, ⟨hn, rfl⟩, hy⟩
    exact ⟨hn, hy⟩

variable (vo us) in
/-- An INSERT adds a row under the next id. -/
theorem gives_insertNext (hnumbers : vn.Numbers) {t : Table} (ht : t ∈ ts) (halias : t.NoAlias)
    {given : List (String × Value)} (hgiven : given ≠ []) :
    Gives (Tells vo vn us ts v v' past)
      (m.write (.insert t.name (given.map Prod.fst) (given.map Prod.snd))) fun _ y =>
        ∃ id, Next t.rows id ∧ Tells vo vn us
          (replace (t.withRows (t.rows ++ [⟨id, t.filled (asStored given)⟩])) ts) v v' past y := by
  have hread := Sql.read?_insert (by simpa using hgiven : given.map Prod.fst ≠ [])
    (by simpa using hgiven : given.map Prod.snd ≠ []) t.name
  refine (gives_writeTold t (P := fun _ rows => ∃ id, Next t.rows id ∧
    rows = t.rows ++ [⟨id, t.filled (asStored given)⟩]) fun s n s' hs he => ?_).post ?_
  · obtain ⟨id, hnext, hshows⟩ := hnumbers.insert hs.sound hread he (hs.tables_eq ▸ ht) rfl halias
    simp only [List.map_map, Function.comp_def, stored_stored, List.zip_map'] at hshows
    exact ⟨_, ⟨id, hnext, rfl⟩, hs.tables_eq ▸ hshows⟩
  · rintro n y ⟨_, ⟨id, hnext, rfl⟩, hy⟩
    exact ⟨id, hnext, hy⟩

section Rows
variable {c : Transfer} {now : List Row} {r : Row}

/-- The table of a transfer has certain rows by now. -/
abbrev Reaches (vo : Tabular m.old.engine) (vn : Tabular m.new.engine) (us ts : List Table)
    (c : Transfer) (past : List Placed) (now : List Row) (y : Migration σ) : Prop :=
  Tells vo vn us (replace (c.new.withRows now) ts) c.oldVersion c.newVersion past y

/-- One row more has been put. -/
def PutsOne (vo : Tabular m.old.engine) (vn : Tabular m.new.engine) (us ts : List Table)
    (c : Transfer) (past : List Placed) (now : List Row) (r : Row) (y : Migration σ) : Prop :=
  ∃ place next, c.Puts now ⟨r, place⟩ next ∧ Reaches vo vn us ts c (past ++ [⟨r, place⟩]) next y

theorem gives_left (h : c.Leaves now r) :
    Gives (Reaches vo vn us ts c past now) countSkipped fun _ y =>
      PutsOne vo vn us ts c past now r y :=
  (gives_entered ⟨r, .left⟩).post fun hy => ⟨.left, now, .left h, hy⟩

variable (hoverwrites : vn.Overwrites) (hnumbers : vn.Numbers) (ht : c.new ∈ ts)
  (halias : c.new.NoAlias) (hstored : ∀ w ∈ r.values, Store.stored w = w)
include hnumbers ht halias hstored

theorem gives_insertRow_puts (hadds : c.Adds r) :
    Gives (Reaches vo vn us ts c past now)
      (m.insertRow c.policy c.new.name (recordOf c.old c.new r).tail)
      fun _ y => PutsOne vo vn us ts c past now r y := by
  change Gives _ (if (c.kept r).isEmpty then countSkipped else do
    discard (m.write (.insert (c.new.withRows now).name ((c.kept r).map Prod.fst)
      ((c.kept r).map Prod.snd)))
    countInserted) _
  split
  · rename_i hempty
    exact gives_left (.unkept hadds (List.isEmpty_iff.1 hempty))
  · rename_i hsome
    have hsome : c.kept r ≠ [] := fun h => hsome (List.isEmpty_iff.2 h)
    have hin : c.new.withRows now ∈ replace (c.new.withRows now) ts := mem_replace ht rfl
    have hself : asStored (c.kept r) = c.kept r :=
      asStored_of_subset hstored fun _ ha => List.mem_of_mem_filter ha
    refine gives_bind (gives_discard (gives_insertNext vo us hnumbers hin halias hsome)) fun _ =>
      gives_of_exists fun id => gives_of_fact fun hnext => ?_
    rw [Table.withRows_withRows, replace_withRows, hself]
    exact (gives_entered ⟨r, .added id⟩).post fun hy =>
      ⟨.added id, _, .added hadds hsome hnext, hy⟩

include hoverwrites in
theorem gives_updateRow_puts (hupdated : c.Overwrites r) :
    Gives (Reaches vo vn us ts c past now)
      (m.updateRow c.policy c.new.name r.id (recordOf c.old c.new r).tail)
      fun _ y => PutsOne vo vn us ts c past now r y := by
  refine gives_get_bind fun y₀ hold hnew => ?_
  dsimp only
  rw [hold, hnew]
  change Gives _ (if (c.assigned r).isEmpty then countSkipped else do
    let changed ← m.write (.update (c.new.withRows now).name (c.assigned r) r.id)
    if changed > 0 then countUpdated else countSkipped) _
  split
  · rename_i hempty
    exact gives_left (.unassigned hupdated (List.isEmpty_iff.1 hempty))
  · rename_i hsome
    have hsome : c.assigned r ≠ [] := fun h => hsome (List.isEmpty_iff.2 h)
    have hin : c.new.withRows now ∈ replace (c.new.withRows now) ts := mem_replace ht rfl
    have hself : asStored (c.assigned r) = c.assigned r :=
      asStored_of_subset hstored fun _ ha => List.mem_of_mem_filter ha
    refine gives_bind (gives_update vo us hoverwrites hnumbers hin halias hsome r.id) fun changed =>
      gives_of_fact fun hchanged => ?_
    rw [Table.withRows_withRows, replace_withRows, hself]
    split
    · rename_i hpositive
      have hmem : r.id ∈ now.map Row.id := countP_id_pos_iff.1 (hchanged ▸ hpositive)
      exact (gives_entered ⟨r, .updated⟩).post fun hy =>
        ⟨.updated, _, .updated hupdated hsome hmem, hy⟩
    · rename_i hzero
      have hnot : r.id ∉ now.map Row.id := fun hmem => hzero (hchanged ▸ countP_id_pos_iff.2 hmem)
      rw [Table.overwriting_of_not_mem hnot]
      exact gives_left (.missed hupdated hnot)

include hoverwrites in
theorem gives_placeRow_puts :
    Gives (Reaches vo vn us ts c past now)
      (m.placeRow c.policy c.new.name (c.new.rows.map Row.id) (recordOf c.old c.new r))
      fun _ y => PutsOne vo vn us ts c past now r y := by
  refine gives_bind (gives_settled _) fun id => gives_of_fact fun hid => ?_
  obtain rfl : r.id = id := Except.ok.inj hid
  refine gives_get_bind fun y₀ hold hnew => ?_
  dsimp only
  rw [hold, hnew]
  generalize hdisposition : c.policy.disposition c.new.name (recordOf c.old c.new r).tail
    c.oldVersion c.newVersion = disposition
  cases disposition with
  | skip => exact gives_left (.skipped hdisposition)
  | update => exact gives_updateRow_puts hoverwrites hnumbers ht halias hstored (.inl hdisposition)
  | insert =>
    dsimp only
    split
    · rename_i hmem
      exact gives_updateRow_puts hoverwrites hnumbers ht halias hstored
        (.inr ⟨hdisposition, List.contains_iff_mem.1 hmem⟩)
    · rename_i hnot
      exact gives_insertRow_puts hnumbers ht halias hstored
        ⟨hdisposition, fun hmem => hnot (List.contains_iff_mem.2 hmem)⟩

omit hstored in
include hoverwrites in
theorem gives_placeRows_puts {rest : List Row}
    (hstored : ∀ r ∈ rest, ∀ w ∈ r.values, Store.stored w = w) :
    Gives (Reaches vo vn us ts c past now)
      (m.placeRows c.policy c.new.name (c.new.rows.map Row.id) (rest.map (recordOf c.old c.new)))
      fun _ y => ∃ placed rows, placed.map Placed.row = rest ∧ c.PutsAll now placed rows ∧
        Reaches vo vn us ts c (past ++ placed) rows y := by
  -- on the rows still to come, for whatever rows the table has by now
  induction rest generalizing past now with
  | nil =>
    refine (gives_pure _).post fun h => ⟨[], now, rfl, .nil, ?_⟩
    rw [List.append_nil]
    exact h.2
  | cons r rest ih =>
    obtain ⟨hr, hrest⟩ := List.forall_mem_cons.1 hstored
    refine gives_bind (gives_placeRow_puts hoverwrites hnumbers ht halias hr) fun _ => ?_
    refine gives_of_exists fun place => gives_of_exists fun next => gives_of_fact fun hput => ?_
    refine (ih hrest).post ?_
    rintro _ y ⟨placed, rows, rfl, hputs, hy⟩
    refine ⟨⟨r, place⟩ :: placed, rows, rfl, .cons hput hputs, ?_⟩
    rwa [List.append_assoc] at hy

end Rows

/-! ### One table -/

theorem mapM_ids (column : String) (rows : List Row) :
    (RowSet.records ⟨[column], rows.map fun row => [.integer row.id]⟩).mapM
      (fun r => r.integer (.at 0)) = .ok (rows.map Row.id) := by
  induction rows with
  | nil => rfl
  | cons row rows ih =>
    have hfirst : Record.integer ⟨[column], [.integer row.id]⟩ (.at 0) = .ok row.id := rfl
    rw [RowSet.records] at ih ⊢
    rw [List.map_cons, List.map_cons, List.mapM_cons, hfirst, ih]
    rfl

variable (vo us) in
/-- The ids that are listed are those of the rows. -/
theorem gives_rowIds (hnumbers : vn.Numbers) {t : Table} (ht : t ∈ ts) :
    Gives (Tells vo vn us ts v v' past) (m.rowIds t.name) fun ids y =>
      ids = t.rows.map Row.id ∧ Tells vo vn us ts v v' past y := by
  have hread := Sql.read?_rowIds t.name
  have hlisted : Gives (Stands vo vn us ts)
      (onNew (m.new.query (Sql.Command.rowIds t.name).text)) fun rows y =>
        (∃ column, rows = ⟨[column], t.rows.map fun row => [.integer row.id]⟩) ∧
          Stands vo vn us ts y := by
    intro y rows z hy h
    refine ⟨?_, (gives_queryNew hread rfl hy h).2⟩
    cases hq : m.new.engine.query (Sql.Command.rowIds t.name).text y.new.store with
    | mk r store =>
      have hrun := m.new.run_query (Sql.Command.rowIds t.name).text y.new
      rw [hq] at hrun
      rw [run_onNew hrun] at h
      cases h
      exact hnumbers.rowIds hy.new.tables.sound hread hq (hy.new.tables.tables_eq ▸ ht) rfl
  refine gives_bind (gives_told hlisted fun _ => rfl) fun rows => ?_
  rintro y ids z ⟨⟨⟨column, rfl⟩, hy⟩, hcounts⟩ h
  rw [mapM_ids] at h
  cases h
  exact ⟨rfl, hy, hcounts⟩

/-- The rows that are read of the old table are put in the new one. -/
theorem gives_placeAll_puts (hoverwrites : vn.Overwrites) (hnumbers : vn.Numbers) {c : Transfer}
    (hpolicy : m.policy = some c.policy) (hu : c.old ∈ us) (ht : c.new ∈ ts)
    (hname : c.old.name = c.new.name) (halias : c.new.NoAlias)
    (hnames : (ts.map Table.name).Nodup) :
    Gives (Tells vo vn us ts c.oldVersion c.newVersion past)
      (m.placeAll c.old.name (sharedColumns c.old c.new) (copied c.old c.new))
      fun _ y => ∃ placed rows, placed.map Placed.row = c.old.rows ∧
        c.PutsAll c.new.rows placed rows ∧ Reaches vo vn us ts c (past ++ placed) rows y := by
  intro y a z hy h
  have hstored := vo.stored hy.old.sound c.old (hy.old.tables_eq ▸ hu)
  have hstart : ∀ {y : Migration σ}, Tells vo vn us ts c.oldVersion c.newVersion past y →
      Reaches vo vn us ts c past c.new.rows y := fun hy => by
    have hself : replace (c.new.withRows c.new.rows) ts = ts := replace_self ht hnames
    rwa [Reaches, hself]
  have hplaced := gives_of_pre hstart (gives_placeRows_puts hoverwrites hnumbers ht halias hstored)
  have hall := gives_bind (gives_rowIds vo us hnumbers ht) fun ids => gives_of_fact fun hids =>
    hids ▸ hplaced
  rw [placeAll, hpolicy, records_copied, hname] at h
  exact hall hy h

end SqlMaps.Migrator
