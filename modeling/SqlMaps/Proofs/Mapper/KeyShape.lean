import Mathlib.Control.Monad.Basic
import SqlMaps.Proofs.Mapper.Writes

/-! The keys that inserts give.

A key query is to give one value. An answer of another shape fails the insert, and the transaction
around both is rolled back; so an insert that succeeds has the one value of its key query. But an
answer without rows is not asked for its shape: the insert succeeds without a key, and what it
inserted stays (`insert_keepsRowWithoutKey`). `insert_value_or_fault` says what comes of every
answer. -/
namespace SqlMaps
open Attempt
variable {σ : Type}

/-- The result is a single value. -/
def RowSet.Single (rows : RowSet) (value : Value) : Prop :=
  ∃ column, rows = ⟨[column], [[value]]⟩

namespace Mapper
variable (m : Mapper σ)

/-! ### The shape of an answer -/

/-- What is wrong with an answer that is no single value. The columns are counted first. -/
def keyFault (rows : RowSet) : RunError :=
  if rows.width ≠ 1 then .columnCount .one else .resultCount .one

/-- The two ways in which an answer is taken: as no key, or as the one value it is. -/
def Taken (rows : RowSet) (key : Option Value) : Prop :=
  (rows.rows = [] ∧ key = none) ∨ ∃ value, rows.Single value ∧ key = some value

theorem taken_of_keyOf {rows : RowSet} {key : Option Value} (hrows : rows.Rectangular)
    (h : keyOf rows = .ok key) : Taken rows key := by
  obtain ⟨columns, rows⟩ := rows
  rcases rows with _ | ⟨row, _ | ⟨next, rest⟩⟩
  · cases h
    exact .inl ⟨rfl, rfl⟩
  · -- one row: what is no fault has one column, and so one value
    have hwide : row.length = columns.length := hrows row (List.mem_singleton_self row)
    by_cases hwidth : columns.length = 1
    · obtain ⟨column, rfl⟩ := List.length_eq_one_iff.1 hwidth
      obtain ⟨value, rfl⟩ := List.length_eq_one_iff.1 hwide
      cases h
      exact .inr ⟨value, ⟨column, rfl⟩, rfl⟩
    · simp [keyOf, RowSet.isEmpty, RowSet.width, hwidth] at h
  · by_cases hwidth : columns.length = 1 <;>
      simp [keyOf, RowSet.isEmpty, RowSet.width, RowSet.size, hwidth] at h

theorem keyOf_of_other {rows : RowSet} (hrows : rows.Rectangular) (hsome : rows.rows ≠ [])
    (hother : ∀ value, ¬ rows.Single value) : keyOf rows = .error (keyFault rows) := by
  cases h : keyOf rows with
  | ok key =>
    obtain ⟨hnone, -⟩ | ⟨value, hsingle, -⟩ := taken_of_keyOf hrows h
    · exact absurd hnone hsome
    · exact absurd hsingle (hother value)
  | error e =>
    have hempty : rows.isEmpty = false := by simpa [RowSet.isEmpty] using hsome
    rw [keyOf, hempty, if_neg Bool.false_ne_true] at h
    split at h
    · rename_i hwidth
      cases h
      rw [keyFault, if_pos hwidth]
    · rename_i hwidth
      split at h
      · cases h
        rw [keyFault, if_neg hwidth]
      · cases h

/-! ### The insert and its key query -/

/-- Sends an insert and its key query, for the answer to that. -/
def sendKeyed (query : Template.CompiledQuery) (node : Template.Node) : SessionM σ RowSet := do
  discard (m.caller.execute query.sql)
  m.caller.query node.selectKeySql

/-- What an insert does up to the answer to its key query. -/
def askKey (query : Template.CompiledQuery) (node : Template.Node) : SessionM σ RowSet := do
  m.caller.begin m.caller.defaultMode
  m.sendKeyed query node

variable {m} {id : String} {params : List Param} {query : Template.CompiledQuery}
  {node : Template.Node} {property : String} {s : Session σ}

/-- An insert with a key query is a transaction around both, for what the answer is taken as. -/
theorem run_insert_of_key (hquery : m.prepare id params inserts = .ok query)
    (hkey : keyProperty query = .ok (some (node, property))) (s : Session σ) :
    (m.insert id params).run s =
      let p := (m.caller.transaction m.caller.defaultMode
        (m.sendKeyed query node >>= fun rows => settled (keyOf rows))).run s
      (p.1.map Prod.fst, p.2) := by
  have hkeyed : m.insertKeyed id params = (do
      let taken ← m.caller.transaction m.caller.defaultMode
        (m.sendKeyed query node >>= fun rows => settled (keyOf rows))
      return taken.1.map (property, ·)) := by
    rw [insertKeyed, hquery, sendKeyed, bind_assoc]
    show (settled (keyProperty query) >>= _) = _
    rw [hkey]
    rfl
  rw [insert, run_bind_pure, hkeyed, run_bind_pure]
  rcases (m.caller.transaction m.caller.defaultMode
    (m.sendKeyed query node >>= fun rows => settled (keyOf rows))).run s with ⟨_ | ⟨_ | _, _⟩, _⟩ <;>
    rfl

/-- An insert that succeeds has taken the answer to its key query. -/
theorem keyOf_of_insert (hquery : m.prepare id params inserts = .ok query)
    (hkey : keyProperty query = .ok (some (node, property))) {key : Option Value}
    (h : ((m.insert id params).run s).1 = .ok key) :
    ∃ rows, ((m.askKey query node).run s).1 = .ok rows ∧ keyOf rows = .ok key := by
  rw [m.run_insert_of_key hquery hkey] at h
  cases hrun : (m.caller.transaction m.caller.defaultMode
      (m.sendKeyed query node >>= fun rows => settled (keyOf rows))).run s with
  | mk r s' =>
    rw [hrun] at h
    cases r with
    | error e => cases h
    | ok taken =>
      obtain ⟨key', outcome⟩ := taken
      cases h
      obtain ⟨s₁, s₂, -, hbegin, hbody, -, -⟩ := run_bracket_eq_ok hrun
      obtain ⟨rows, s₃, hsent, htaken⟩ := run_bind_eq_ok hbody
      refine ⟨rows, ?_, congrArg Prod.fst htaken⟩
      rw [askKey, run_bind, hbegin]
      exact congrArg Prod.fst hsent

/-- An insert whose answer is at fault fails with that fault, and closes what it has opened. -/
theorem run_insert_of_fault (hquery : m.prepare id params inserts = .ok query)
    (hkey : keyProperty query = .ok (some (node, property))) {rows : RowSet} {e : RunError}
    (hrows : ((m.askKey query node).run s).1 = .ok rows) (he : keyOf rows = .error e) :
    (m.insert id params).run s =
      (.error e, (m.caller.finish.run ((m.askKey query node).run s).2).2) := by
  cases hasked : (m.askKey query node).run s with
  | mk r s₂ =>
    rw [hasked] at hrows
    cases hrows
    obtain ⟨⟨⟩, s₁, hbegin, hsent⟩ := run_bind_eq_ok hasked
    have hinside : (do
        let key ← m.sendKeyed query node >>= fun rows => settled (keyOf rows)
        m.caller.setSuccessful
        return key : SessionM σ (Option Value)).run s₁ = (.error e, s₂) := by
      simp only [run_bind, hsent, run_settled, he]
    cases hfinish : m.caller.finish.run s₂ with
    | mk outcome s₃ =>
      have hrun := run_bracket_of_ok hbegin hinside hfinish
      rw [run_insert_of_key hquery hkey, Caller.transaction, hrun]
      rfl

theorem performs_sendKeyed (query : Template.CompiledQuery) (node : Template.Node) :
    m.caller.Performs [(.execute, query.sql), (.query, node.selectKeySql)]
      (m.sendKeyed query node) :=
  (Caller.performs_execute _).discard.bind fun _ => Caller.performs_send ..

/-- Asking for the key while no transaction is open leaves the one that was begun. -/
theorem askKey_of_idle {rows : RowSet} {s' : Session σ} (hidle : s.transaction = none)
    (h : (m.askKey query node).run s = (.ok rows, s')) :
    s'.transaction = some ⟨m.caller.thread, 0, false⟩ ∧
      s'.log = s.log ++ [(Channel.batch, m.caller.defaultMode.beginStatement),
        (.execute, query.sql), (.query, node.selectKeySql)].map m.caller.success := by
  obtain ⟨_, s₁, hbegin, hsent⟩ := run_bind_eq_ok h
  obtain ⟨e, store, -, hrefused⟩ | ⟨store, -, hbegun⟩ :=
    m.caller.run_begin_of_idle m.caller.defaultMode hidle
  · cases hbegin.symm.trans hrefused
  · cases hbegin.symm.trans hbegun
    obtain ⟨hkept, es, hlog, -, hall⟩ := m.performs_sendKeyed query node
      (s := m.caller.begun m.caller.defaultMode s store) rfl rfl
    rw [hsent] at hkept hlog hall
    obtain rfl := hall rows rfl
    refine ⟨hkept, hlog.trans ?_⟩
    simp [Caller.begun, Caller.success]

/-- What an insert with a key query makes of the answer. If it succeeds, the answer was one value,
which is the key, or there was no row, and there is no key. Any other answer is at fault: the
insert fails, and if no transaction was open before, the one around the insert is rolled back. -/
theorem insert_value_or_fault (hquery : m.prepare id params inserts = .ok query)
    (hkeys : query.selectKeys = [node])
    (hproperty : node.attributes.value? "keyProperty" = some property) (s : Session σ) :
    let asked := (m.askKey query node).run s
    let p := (m.insert id params).run s
    (∀ key, p.1 = .ok key → ∃ rows, asked.1 = .ok rows ∧ (rows.Rectangular → Taken rows key)) ∧
    ∀ rows, asked.1 = .ok rows → rows.Rectangular → rows.rows ≠ [] →
      (∀ value, ¬ rows.Single value) → p.1 = .error (keyFault rows) ∧
        (s.transaction = none →
          let rolledBack := m.caller.engine.batch "ROLLBACK" asked.2.store
          p.2.transaction = none ∧ p.2.store = rolledBack.2 ∧
            p.2.log = s.log ++ [(Channel.batch, m.caller.defaultMode.beginStatement),
                (.execute, query.sql), (.query, node.selectKeySql)].map m.caller.success ++
              [m.caller.entry .batch "ROLLBACK" rolledBack.1]) := by
  intro asked p
  have hkey : keyProperty query = .ok (some (node, property)) := by
    rw [keyProperty, hkeys]
    simp only [hproperty]
  refine ⟨fun key hok => ?_, fun rows hrows hwide hsome hother => ?_⟩
  · obtain ⟨rows, hrows, htaken⟩ := keyOf_of_insert hquery hkey hok
    exact ⟨rows, hrows, fun hwide => taken_of_keyOf hwide htaken⟩
  · have hrun := run_insert_of_fault hquery hkey hrows (keyOf_of_other hwide hsome hother)
    have hp : p = (.error (keyFault rows), (m.caller.finish.run asked.2).2) := hrun
    rw [hp]
    refine ⟨rfl, fun hidle => ?_⟩
    have hasked : (m.askKey query node).run s = (.ok rows, asked.2) := Prod.ext hrows rfl
    obtain ⟨hopen, hlog⟩ := askKey_of_idle hidle hasked
    obtain ⟨r, store, cs, hfinish, hclosing⟩ :=
      m.caller.run_finish_of_outermost hopen rfl rfl
    rw [hfinish]
    cases hclosing with
    | rolledBack hbatch =>
      refine ⟨rfl, ?_, ?_⟩
      · exact (congrArg Prod.snd hbatch).symm
      · show asked.2.log ++ _ = _
        rw [hlog, hbatch]

/-- A key query that gives two rows: the answer is at fault, and the insert is rolled back. -/
theorem insert_value_or_fault_twoRows :
    let m := keyedBy .nil
    let two : RowSet := ⟨["id"], [[.integer 7], [.integer 8]]⟩
    let s : Session (List Rule) :=
      .start [{ Rule.fallback with channel := some .query, rows := two }]
    let p := (m.insert "add" []).run s
    (∃ query node, m.prepare "add" [] inserts = .ok query ∧ query.selectKeys = [node] ∧
      node.attributes.value? "keyProperty" = some "id" ∧
      ((m.askKey query node).run s).1 = .ok two) ∧
    two.Rectangular ∧ two.rows ≠ [] ∧ (∀ value, ¬ two.Single value) ∧ s.transaction = none ∧
    p.1 = .error (.resultCount .one) ∧ p.2.transaction = none ∧
      p.2.log.map (fun e => (e.statement, e.succeeded)) =
        [((.batch, "BEGIN IMMEDIATE"), true), ((.execute, "INSERT INTO t VALUES (1)"), true),
          ((.query, "SELECT last_insert_rowid()"), true), ((.batch, "ROLLBACK"), true)] := by
  intro m two s p
  let node : Template.Node :=
    ⟨.directive .selectKey, [("keyProperty", "id")], "", some 0, [], false⟩
  have hcompiled : (m.prepare "add" [] inserts).toOption.map (fun q => (q.selectKeys, q.sql)) =
      some ([node], "INSERT INTO t VALUES (1)") := by decide +kernel
  cases hquery : m.prepare "add" [] inserts with
  | error e =>
    rw [hquery] at hcompiled
    cases hcompiled
  | ok query =>
    rw [hquery] at hcompiled
    obtain ⟨hkeys, hsql⟩ := Prod.mk.inj (Option.some.inj hcompiled)
    have hproperty : node.attributes.value? "keyProperty" = some "id" := by decide +kernel
    have hasked : ((m.askKey query node).run s).1 = .ok two := by
      rw [askKey, sendKeyed, hsql]
      decide +kernel
    have hrectangular : two.Rectangular := by decide
    have hsome : two.rows ≠ [] := by decide
    have hother : ∀ value, ¬ two.Single value := fun _ ⟨_, h⟩ =>
      nomatch (congrArg RowSet.size h : 2 = 1)
    obtain ⟨herror, hrolledBack⟩ :=
      (insert_value_or_fault hquery hkeys hproperty s).2 two hasked hrectangular hsome hother
    exact ⟨⟨query, node, rfl, hkeys, hproperty, hasked⟩, hrectangular, hsome, hother, rfl, herror,
      (hrolledBack rfl).1, by decide +kernel⟩

/-- Nobody asks an answer without rows for its shape: the insert succeeds without a key, and what
it inserted is committed. -/
theorem insert_keepsRowWithoutKey :
    let m := keyedBy .nil
    let none : Rule := { Rule.fallback with channel := some .query, rows := ⟨["id"], []⟩ }
    let p := (m.insert "add" []).run (.start [none])
    p.1.toOption = some Option.none ∧
      p.2.log.map (fun e => (e.statement, e.succeeded)) =
        [((.batch, "BEGIN IMMEDIATE"), true), ((.execute, "INSERT INTO t VALUES (1)"), true),
          ((.query, "SELECT last_insert_rowid()"), true), ((.batch, "COMMIT"), true)] := by
  decide +kernel

end Mapper

end SqlMaps
