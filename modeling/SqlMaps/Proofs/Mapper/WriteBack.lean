import Mathlib.Control.Monad.Basic
import SqlMaps.Bean.Form
import SqlMaps.Proofs.Mapper.Keywords

/-! Inserting an object that takes the key of its row.

The insert and its key query are one transaction, and that is over when the object is given the
key (`insertBean_cases`). An object can refuse it: it has no such field, or the key does not fit
into the field. Then the call fails behind a COMMIT that has succeeded
(`insertBean_failsBehindCommit`). The only other way to that is a key query that says COMMIT itself
(`commits_of_insertBean_error`). -/
namespace SqlMaps
open Attempt
variable {σ β : Type}

namespace Mapper
variable (m : Mapper σ) {s : Session σ}

/-- The ways in which an object takes what an insert of its fields gives: the result of the
insert, and what comes of inserting the object. -/
inductive WrittenBack (bean : Bean β) (b : β) :
    Except RunError (Option (String × Value)) → Except RunError (Option Value) → β → Prop where
  | failed {e : RunError} : WrittenBack bean b (.error e) (.error e) b
  | keyless : WrittenBack bean b (.ok none) (.ok none) b
  | taken {property : String} {value : Value} {b' : β} :
      bean.setField b property value.text? = (.ok (), b') →
      WrittenBack bean b (.ok (some (property, value))) (.ok (some value)) b'
  | refused {property : String} {value : Value} {fault : FieldError} {b' : β} :
      bean.setField b property value.text? = (.error fault, b') →
      WrittenBack bean b (.ok (some (property, value))) (.error (.field fault)) b'

theorem insertBean_cases (bean : Bean β) (id : String) (b : β) (s : Session σ) :
    WrittenBack bean b ((m.insertKeyed id (bean.toParams b)).run s).1
      ((m.insertBean bean id b).run s).1.1 ((m.insertBean bean id b).run s).1.2 := by
  rw [insertBean, StateT.run_bind]
  cases hrun : (m.insertKeyed id (bean.toParams b)).run s with
  | mk r s' =>
    have hrun' : StateT.run (m.insertKeyed id (bean.toParams b)).run s = (r, s') := hrun
    rw [hrun']
    rcases r with e | _ | ⟨property, value⟩
    · exact .failed
    · exact .keyless
    · cases hset : bean.setField b property value.text? with
      | mk r b' =>
        cases r with
        | ok _ =>
          simp only [bind, hset]
          exact .taken hset
        | error fault =>
          simp only [bind, hset]
          exact .refused hset

/-- Of what an insert sends as queries only the template's own key query can say COMMIT. -/
theorem InsertEntry.ownKeyQuery {m : Mapper σ} {id : String} {params : List Param} {e : Entry}
    (h : m.InsertEntry id params e) (hcommits : e.Commits) (hchannel : e.channel = .query) :
    m.OwnKeyQuery id params e := by
  have hselect : (Template.checkStatement "COMMIT" selects).isOk = false := by decide
  obtain (hbrackets | hwrites) | hselects | hown := h
  · exact nomatch hchannel.symm.trans hbrackets.channel
  · exact nomatch hchannel.symm.trans hwrites.channel
  · have hstarts := hselects.keyword
    rw [hcommits.1] at hstarts
    rw [Template.checkStatement_isOk_iff.2 hstarts] at hselect
    cases hselect
  · exact hown

/-- Where an insert fails, no COMMIT has succeeded but a key query of the template's own. -/
theorem commits_of_insertKeyed_error {id : String} {params : List Param} {e : RunError}
    (hidle : s.transaction = none) (he : ((m.insertKeyed id params).run s).1 = .error e) :
    ∃ es, ((m.insertKeyed id params).run s).2.log = s.log ++ es ∧
      ∀ entry ∈ es, entry.Commits → m.OwnKeyQuery id params entry := by
  obtain ⟨es, hlog, hcommits⟩ := (m.commitsIffOk_insertKeyed id params hidle).undone e he
  obtain ⟨es', hlog', hentries⟩ := m.logs_insertKeyed id params s
  obtain rfl : es = es' := List.append_cancel_left (hlog.symm.trans hlog')
  exact ⟨es, hlog, fun entry hmem hcommit =>
    (hentries entry hmem).ownKeyQuery hcommit (hcommits entry hmem hcommit).1⟩

/-- Inserting an object while no transaction is open leaves none open, and it fails in two ways.
The object has refused the key: then all statements have been sent, and the COMMIT behind them has
succeeded. Or the insert itself has failed: then the object is as it was, and no COMMIT has
succeeded, other than the key query that the template itself writes. -/
theorem commits_of_insertBean_error (bean : Bean β) (id : String) (b : β)
    (hidle : s.transaction = none) :
    let inserted := (m.insertKeyed id (bean.toParams b)).run s
    let p := (m.insertBean bean id b).run s
    p.2.transaction = none ∧ ∀ e, p.1.1 = .error e → ∃ es, p.2.log = s.log ++ es ∧
      ((∃ property value fault, inserted.1 = .ok (some (property, value)) ∧
          bean.setField b property value.text? = (.error fault, p.1.2) ∧ e = .field fault ∧
          ∃ ps, m.insertStatements id (bean.toParams b) = .ok ps ∧
            es = ((Channel.batch, m.caller.defaultMode.beginStatement) ::
              (ps ++ [(Channel.batch, "COMMIT")])).map m.caller.success) ∨
        inserted.1 = .error e ∧ p.1.2 = b ∧
          ∀ entry ∈ es, entry.Commits → m.OwnKeyQuery id (bean.toParams b) entry) := by
  intro inserted p
  have hcommits := m.commitsIffOk_insertKeyed id (bean.toParams b) hidle
  have hcases : WrittenBack bean b inserted.1 p.1.1 p.1.2 := m.insertBean_cases bean id b s
  have hsession : p.2 = inserted.2 := m.session_insertBean bean id b s
  rw [hsession]
  refine ⟨hcommits.idle, fun e he => ?_⟩
  rw [he] at hcases
  generalize hkey : inserted.1 = key at hcases
  generalize p.1.2 = b' at hcases
  cases hcases with
  | failed =>
    obtain ⟨es, hlog, hown⟩ := m.commits_of_insertKeyed_error hidle hkey
    exact ⟨es, hlog, .inr ⟨rfl, rfl, hown⟩⟩
  | refused hset =>
    obtain ⟨ps, hplanned, hlog⟩ := hcommits.committed _ hkey
    exact ⟨_, hlog, .inl ⟨_, _, _, rfl, hset, rfl, ps, hplanned, rfl⟩⟩

/-- A key query that gives two columns: the insert is rolled back, and the object as it was. -/
theorem commits_of_insertBean_error_wideKey :
    let m := keyedBy .nil
    let bean := Form.bean [⟨"id", .int64, .integer 0⟩]
    let wide : Rule :=
      { Rule.fallback with
          channel := some .query, rows := ⟨["id", "name"], [[.integer 7, .text "ann"]]⟩ }
    let s : Session (List Rule) := .start [wide]
    let p := (m.insertBean bean "add" bean.blank).run s
    s.transaction = none ∧ p.1.1 = .error (.columnCount .one) ∧ p.1.2 = bean.blank ∧
      p.2.log.map (fun e => (e.statement, e.succeeded)) =
        [((.batch, "BEGIN IMMEDIATE"), true), ((.execute, "INSERT INTO t VALUES (1)"), true),
          ((.query, "SELECT last_insert_rowid()"), true), ((.batch, "ROLLBACK"), true)] := by
  intro m bean wide s p
  have herror : p.1.1 = .error (.columnCount .one) := by decide +kernel
  obtain ⟨-, hfails⟩ := commits_of_insertBean_error m bean "add" bean.blank (s := s) rfl
  obtain ⟨es, -, ⟨_, _, _, -, -, hfield, -⟩ | ⟨-, hsame, -⟩⟩ := hfails _ herror
  · cases hfield
  · exact ⟨rfl, herror, hsame, by decide +kernel⟩

/-- An object whose field for the key holds a number refuses a key that is a name, and so does one
without such a field. The row has been committed then. -/
theorem insertBean_failsBehindCommit :
    let m := keyedBy .nil
    let named : Rule :=
      { Rule.fallback with channel := some .query, rows := ⟨["id"], [[.text "ann"]]⟩ }
    let s : Session (List Rule) := .start [named]
    let log : List ((Channel × String) × Bool) :=
      [((.batch, "BEGIN IMMEDIATE"), true), ((.execute, "INSERT INTO t VALUES (1)"), true),
        ((.query, "SELECT last_insert_rowid()"), true), ((.batch, "COMMIT"), true)]
    ∀ fields ∈ [[⟨"id", .int64, .integer 0⟩], [⟨"name", .text, .text ""⟩]],
      let p := (m.insertBean (Form.bean fields) "add" fields).run s
      s.transaction = none ∧ p.1.1.isOk = false ∧ p.1.2 = fields ∧
        p.2.log.map (fun e => (e.statement, e.succeeded)) = log := by
  decide +kernel

end Mapper

end SqlMaps
