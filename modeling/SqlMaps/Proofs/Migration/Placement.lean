import SqlMaps.Proofs.Engine.RowIds
import SqlMaps.Proofs.Migration.MatchingRows

/-! Where a policy puts the rows of a table.

A row is left out, or added under the next id, or written over the row that has its id by then
(`Transfer.Puts`), and rows are put one after another (`PutsAll`). The id that a row is added under is
new, so a row that was put stays as it is until a later one is written over it. A row that is to be
added is written only over one that was there from the start; a row that is to be updated also over one
that was added under its id, and that one is lost (`Loses`). All other rows that were put stand in rows
of their own, which hold what was written (`Copy.keepsApart`). -/
namespace SqlMaps.Relational
open Migrator (recordOf)

/-- A row holds the values that were given for it. -/
def Table.Holds (t : Table) (row : Row) (given : List (String × Value)) : Prop :=
  ∀ a ∈ given, t.valueOf row a.1 = a.2

/-- What becomes of a row. -/
inductive Place where
  | left
  | added (id : Int64)
  /-- The row is written over the one with its id. -/
  | updated

/-- A row of the old table, and what has become of it. -/
structure Placed where
  row : Row
  place : Place

namespace Placed
variable (e : Placed)

/-- The id of the row of the new table that the row was put in. -/
def target? : Option Int64 :=
  match e.place with
  | .left => none
  | .added id => some id
  | .updated => some e.row.id

def wasLeft : Bool := e.place matches .left

def wasAdded : Bool := e.place matches .added _

def wasUpdated : Bool := e.place matches .updated

end Placed

/-- A table of the old database that is copied into one of the new database as a policy says. -/
structure Transfer where
  policy : RetentionPolicy
  oldVersion : Int64
  newVersion : Int64
  old : Table
  new : Table

namespace Transfer
variable (c : Transfer)

def disposition (r : Row) : Disposition :=
  c.policy.disposition c.new.name (recordOf c.old c.new r).tail c.oldVersion c.newVersion

/-- The values that a row is added with. -/
def kept (r : Row) : List (String × Value) :=
  (projected c.old c.new r).filter fun a => !c.policy.ignoresColumn c.new.name a.1

/-- The values that are written over those of the row with the same id. -/
def assigned (r : Row) : List (String × Value) :=
  (projected c.old c.new r).filter fun a => !c.policy.ignoresColumn c.new.name a.1 &&
    c.policy.savesColumn c.new.name a.1 a.2 c.oldVersion c.newVersion

/-- The values that were written for a row. -/
def written (e : Placed) : List (String × Value) :=
  match e.place with
  | .left => []
  | .added _ => c.kept e.row
  | .updated => c.assigned e.row

/-- A row is to be added, and there was none with its id. -/
def Adds (r : Row) : Prop :=
  c.disposition r = .insert ∧ r.id ∉ c.new.rows.map Row.id

/-- A row is to be written over the one with its id. -/
def Overwrites (r : Row) : Prop :=
  c.disposition r = .update ∨ c.disposition r = .insert ∧ r.id ∈ c.new.rows.map Row.id

/-- Why a row is left out. -/
inductive Leaves (now : List Row) (r : Row) : Prop where
  | skipped : c.disposition r = .skip → Leaves now r
  | unkept : c.Adds r → c.kept r = [] → Leaves now r
  | unassigned : c.Overwrites r → c.assigned r = [] → Leaves now r
  | missed : c.Overwrites r → r.id ∉ now.map Row.id → Leaves now r

/-- One row is put among those that the new table has by now. -/
inductive Puts (now : List Row) : Placed → List Row → Prop where
  | left {r : Row} : c.Leaves now r → Puts now ⟨r, .left⟩ now
  | added {r : Row} {id : Int64} : c.Adds r → c.kept r ≠ [] → Next now id →
      Puts now ⟨r, .added id⟩ (now ++ [⟨id, c.new.filled (c.kept r)⟩])
  | updated {r : Row} : c.Overwrites r → c.assigned r ≠ [] → r.id ∈ now.map Row.id →
      Puts now ⟨r, .updated⟩ ((c.new.withRows now).overwriting r.id (c.assigned r))

/-- Rows are put one after another. -/
inductive PutsAll : List Row → List Placed → List Row → Prop where
  | nil {now : List Row} : PutsAll now [] now
  | cons {now next after : List Row} {e : Placed} {es : List Placed} :
      c.Puts now e next → PutsAll next es after → PutsAll now (e :: es) after

variable {c} {now next after : List Row} {e e' : Placed} {es : List Placed} {id : Int64}

/-! ### One row -/

/-- A value is written to a column of the new table, and to no column another one. -/
theorem lookup_filter_projected {u t : Table} {r : Row} {p : String × Value → Bool}
    {a : String × Value} (ha : a ∈ (projected u t r).filter p) :
    a.1 ∈ t.columnNames ∧ ((projected u t r).filter p).lookup a.1 = some a.2 := by
  have hvalue : ∀ b ∈ projected u t r, b.1 ∈ sharedColumns u t ∧ b.2 = u.valueOf r b.1 := by
    intro b hb
    rw [projected, ← List.map_id (sharedColumns u t), List.map_map, List.zip_map'] at hb
    obtain ⟨column, hcolumn, rfl⟩ := List.mem_map.1 hb
    exact ⟨hcolumn, rfl⟩
  have hmem := hvalue a (List.mem_of_mem_filter ha)
  refine ⟨by simpa [sharedColumns] using (List.mem_filter.1 hmem.1).2, ?_⟩
  cases hlookup : ((projected u t r).filter p).lookup a.1 with
  | none => simpa using List.lookup_eq_none_iff.1 hlookup a ha
  | some w =>
    obtain ⟨before, behind, hsplit, -⟩ := List.lookup_eq_some_iff.1 hlookup
    have hin : (a.1, w) ∈ (projected u t r).filter p :=
      hsplit ▸ List.mem_append_right before (List.mem_cons_self ..)
    have hw : w = u.valueOf r a.1 := (hvalue _ (List.mem_of_mem_filter hin)).2
    rw [hw, hmem.2]

/-- A row that is added holds what it is added with. -/
theorem holds_filled (r : Row) (id : Int64) :
    c.new.Holds ⟨id, c.new.filled (c.kept r)⟩ (c.kept r) := fun _ ha =>
  have hwritten := lookup_filter_projected ha
  Table.valueOf_filled hwritten.1 hwritten.2 id

/-- A row that is written over holds what is assigned to it. -/
theorem holds_overwritten (r row : Row) :
    c.new.Holds (c.new.overwritten (c.assigned r) row) (c.assigned r) := fun _ ha => by
  obtain ⟨hcolumn, hlookup⟩ := lookup_filter_projected ha
  rw [Table.valueOf_overwritten hcolumn, assigned, hlookup, Option.getD_some]

theorem Puts.subset (h : c.Puts now e next) : now.map Row.id ⊆ next.map Row.id := by
  cases h with
  | left => exact List.Subset.refl _
  | added => exact List.map_append .. ▸ List.subset_append_left ..
  | updated => exact (Table.map_id_overwriting ..).symm ▸ List.Subset.refl _

/-- The id that a row is added under is new. -/
theorem Puts.fresh (h : c.Puts now e next) (he : e.place = .added id) : id ∉ now.map Row.id := by
  cases h with
  | left => cases he
  | added _ _ hnext =>
    cases he
    exact hnext.fresh
  | updated => cases he

/-- Where a row was put, there is one that holds its written values. -/
theorem Puts.holds (h : c.Puts now e next) (he : e.target? = some id) :
    ∃ row ∈ next, row.id = id ∧ c.new.Holds row (c.written e) := by
  cases h with
  | left => cases he
  | @added r =>
    cases he
    exact ⟨_, List.mem_append_right now (List.mem_singleton_self _), rfl, holds_filled r id⟩
  | @updated r _ _ hmem =>
    cases he
    obtain ⟨row, hrow, hid⟩ := List.mem_map.1 hmem
    exact ⟨_, List.mem_map.2 ⟨row, hrow, if_pos hid⟩, hid, holds_overwritten r row⟩

/-- A row stays as it is, unless another one is written over it. -/
theorem Puts.mem {row : Row} (h : c.Puts now e next) (hrow : row ∈ now)
    (he : e.place = .updated → e.row.id ≠ row.id) : row ∈ next := by
  cases h with
  | left => exact hrow
  | added => exact List.mem_append_left _ hrow
  | updated => exact List.mem_map.2 ⟨row, hrow, if_neg fun hid => he rfl hid.symm⟩

/-! ### All rows -/

theorem PutsAll.fresh (h : c.PutsAll now es after) (he : e ∈ es) (hid : e.place = .added id) :
    id ∉ now.map Row.id := by
  induction h with
  | nil => cases he
  | cons hput _ ih =>
    rcases List.mem_cons.1 he with rfl | he
    · exact hput.fresh hid
    · exact fun hmem => ih he (hput.subset hmem)

theorem PutsAll.mem {row : Row} (h : c.PutsAll now es after) (hrow : row ∈ now)
    (hupdated : ∀ e ∈ es, e.place = .updated → e.row.id ≠ row.id) : row ∈ after := by
  induction h with
  | nil => exact hrow
  | cons hput _ ih =>
    obtain ⟨he, hrest⟩ := List.forall_mem_cons.1 hupdated
    exact ih (hput.mem hrow he) hrest

/-- What is written over a row is to be updated, or the row was there before. -/
theorem PutsAll.overwrites (h : c.PutsAll now es after) (he : e ∈ es)
    (hupdated : e.place = .updated) : c.Overwrites e.row ∧ c.assigned e.row ≠ [] := by
  induction h with
  | nil => cases he
  | cons hput _ ih =>
    rcases List.mem_cons.1 he with rfl | he
    · cases hput with
      | left => cases hupdated
      | added => cases hupdated
      | updated hoverwrites hassigned _ => exact ⟨hoverwrites, hassigned⟩
    · exact ih he

/-- A row to be updated is written over the one with its id. -/
theorem PutsAll.updated_of_mem (h : c.PutsAll now es after) (he : e ∈ es)
    (hupdated : c.disposition e.row = .update) (hassigned : c.assigned e.row ≠ [])
    (hmem : e.row.id ∈ now.map Row.id) : e.place = .updated := by
  induction h with
  | nil => cases he
  | cons hput _ ih =>
    rcases List.mem_cons.1 he with rfl | he
    · cases hput with
      | left hleaves =>
        cases hleaves with
        | skipped hskip => cases hskip.symm.trans hupdated
        | unkept hadds => cases hadds.1.symm.trans hupdated
        | unassigned _ hnone => exact absurd hnone hassigned
        | missed _ hnot => exact absurd hmem hnot
      | added hadds => cases hadds.1.symm.trans hupdated
      | updated => rfl
    · exact ih he (hput.subset hmem)

/-- A row is lost to a later one, which is to be updated and has the id that the row was added
under. -/
structure Loses (c : Transfer) (es : List Placed) (e e' : Placed) : Prop where
  later : [e, e'].Sublist es
  added : e.place = .added e'.row.id
  updated : c.disposition e'.row = .update
  assigned : c.assigned e'.row ≠ []

theorem Loses.cons (h : c.Loses es e e') (e₀ : Placed) : c.Loses (e₀ :: es) e e' :=
  ⟨h.later.cons e₀, h.added, h.updated, h.assigned⟩

theorem Loses.place_later (h : c.PutsAll now es after) (hloses : c.Loses es e e') :
    e'.place = .updated := by
  induction h with
  | nil => cases hloses.later
  | cons hput hrest ih =>
    cases hloses.later with
    | cons _ hlater => exact ih ⟨hlater, hloses.added, hloses.updated, hloses.assigned⟩
    | cons_cons _ hlater =>
      have htarget : e.target? = some e'.row.id := by rw [Placed.target?, hloses.added]
      obtain ⟨row, hrow, hid, -⟩ := hput.holds htarget
      exact hrest.updated_of_mem (List.singleton_sublist.1 hlater) hloses.updated hloses.assigned
        (hid ▸ List.mem_map_of_mem hrow)

/-- Where two rows were put into one, the first is lost to the second. -/
theorem Puts.loses (h : c.Puts now e next) (hrest : c.PutsAll next es after)
    (hnow : c.new.rows.map Row.id ⊆ now.map Row.id) (he' : e' ∈ es) (hne : e.row.id ≠ e'.row.id)
    (hid : e.target? = some id) (hid' : e'.target? = some id) : c.Loses (e :: es) e e' := by
  have hmem : id ∈ next.map Row.id := by
    obtain ⟨row, hrow, rfl, -⟩ := h.holds hid
    exact List.mem_map_of_mem hrow
  -- the second was not added, since its id would be new
  have hupdated : e'.place = .updated ∧ e'.row.id = id := by
    cases hplace : e'.place with
    | left => simp [Placed.target?, hplace] at hid'
    | added id' =>
      obtain rfl : id' = id := by simpa [Placed.target?, hplace] using hid'
      exact absurd hmem (hrest.fresh he' hplace)
    | updated => simpa [Placed.target?, hplace] using hid'
  obtain ⟨hupdated, rfl⟩ := hupdated
  have hadded : e.place = .added e'.row.id := by
    cases hplace : e.place with
    | left => simp [Placed.target?, hplace] at hid
    | added id' => simpa [Placed.target?, hplace] using hid
    | updated => exact absurd (by simpa [Placed.target?, hplace] using hid) hne
  obtain ⟨hoverwrites, hassigned⟩ := hrest.overwrites he' hupdated
  refine ⟨(List.singleton_sublist.2 he').cons_cons e, hadded, ?_, hassigned⟩
  exact hoverwrites.resolve_right fun hinsert => h.fresh hadded (hnow hinsert.2)

/-- Rows of different ids are put into one only if one is lost to the other. -/
theorem PutsAll.loses (h : c.PutsAll now es after)
    (hnow : c.new.rows.map Row.id ⊆ now.map Row.id) (hids : (es.map (·.row.id)).Nodup)
    (he : e ∈ es) (he' : e' ∈ es) (hne : e ≠ e') (hid : e.target? = some id)
    (hid' : e'.target? = some id) : c.Loses es e e' ∨ c.Loses es e' e := by
  induction h with
  | nil => cases he
  | @cons now next after e₀ es hput hrest ih =>
    rw [List.map_cons, List.nodup_cons] at hids
    have hapart : ∀ e ∈ es, e₀.row.id ≠ e.row.id := fun e he heq =>
      hids.1 (heq ▸ List.mem_map_of_mem he)
    rcases List.mem_cons.1 he with rfl | hin
    · have hin' := (List.mem_cons.1 he').resolve_left (Ne.symm hne)
      exact .inl (hput.loses hrest hnow hin' (hapart e' hin') hid hid')
    · rcases List.mem_cons.1 he' with rfl | hin'
      · exact .inr (hput.loses hrest hnow hin (hapart e hin) hid' hid)
      · exact (ih (List.Subset.trans hnow hput.subset) hids.2 hin hin').imp (·.cons e₀) (·.cons e₀)

/-- A row that was put is there afterwards, unless it is lost. -/
theorem PutsAll.holds (h : c.PutsAll now es after)
    (hnow : c.new.rows.map Row.id ⊆ now.map Row.id) (hids : (es.map (·.row.id)).Nodup)
    (he : e ∈ es) (hid : e.target? = some id) :
    (∃ e' ∈ es, c.Loses es e e') ∨
      ∃ row ∈ after, row.id = id ∧ c.new.Holds row (c.written e) := by
  induction h with
  | nil => cases he
  | @cons now next after e₀ es hput hrest ih =>
    rw [List.map_cons, List.nodup_cons] at hids
    rcases List.mem_cons.1 he with rfl | he
    · obtain ⟨row, hrow, rfl, hholds⟩ := hput.holds hid
      by_cases hlater : ∃ e' ∈ es, e'.place = .updated ∧ e'.row.id = row.id
      · obtain ⟨e', he', hupdated, hid'⟩ := hlater
        have hne : e.row.id ≠ e'.row.id := fun heq => hids.1 (heq ▸ List.mem_map_of_mem he')
        have htarget : e'.target? = some row.id := by rw [Placed.target?, hupdated, hid']
        exact .inl ⟨e', List.mem_cons_of_mem e he',
          hput.loses hrest hnow he' hne hid htarget⟩
      · exact .inr ⟨row, hrest.mem hrow fun e' he' hupdated heq => hlater ⟨e', he', hupdated, heq⟩,
          rfl, hholds⟩
    · refine (ih (List.Subset.trans hnow hput.subset) hids.2 he).imp_left ?_
      rintro ⟨e', he', hloses⟩
      exact ⟨e', List.mem_cons_of_mem e₀ he', hloses.cons e₀⟩

end Transfer

/-- A table that was copied: what became of each row, and the rows that the new table then has. -/
structure Copy extends Transfer where
  placed : List Placed
  rows : List Row
  puts : toTransfer.PutsAll new.rows placed rows

namespace Copy
variable (c : Copy)

/-- The table that the new database then has. -/
def after : Table :=
  c.new.withRows c.rows

/-- Rows that were put stand in rows of their own, which hold what was written, but for those that
are lost. -/
structure KeepsApart : Prop where
  held : ∀ e ∈ c.placed, ∀ id, e.target? = some id →
    (∃ e' ∈ c.placed, c.Loses c.placed e e') ∨
      ∃ row ∈ c.after.rows, row.id = id ∧ c.after.Holds row (c.written e)
  apart : ∀ e ∈ c.placed, ∀ e' ∈ c.placed, e ≠ e' → ∀ id, e.target? = some id →
    (e'.target? = some id ↔ c.Loses c.placed e e' ∨ c.Loses c.placed e' e)

theorem keepsApart (hids : (c.placed.map (·.row.id)).Nodup) : c.KeepsApart where
  held _ he _ hid := c.puts.holds (List.Subset.refl _) hids he hid
  apart e he e' he' hne id hid := by
    refine ⟨c.puts.loses (List.Subset.refl _) hids he he' hne hid, ?_⟩
    rintro (hloses | hloses)
    · have hupdated := hloses.place_later c.puts
      rw [Placed.target?, hloses.added] at hid
      rw [Placed.target?, hupdated, ← hid]
    · have hupdated := hloses.place_later c.puts
      rw [Placed.target?, hupdated] at hid
      rw [Placed.target?, hloses.added, ← hid]

end Copy

end SqlMaps.Relational
