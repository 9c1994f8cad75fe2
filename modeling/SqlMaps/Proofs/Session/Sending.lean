import SqlMaps.Proofs.Session.Blocks
import SqlMaps.Snapshot

/-! What calls send that leave the transaction as it is.

`Sends P` takes a session to one with the same transaction and with further entries in
its log, all of which are as `P` says. Looking at a database sends queries only, whoever
owns the transaction (`reads_snapshotTables`). A write that its thread makes inside the
transaction it owns opens a level and closes it again, so that nothing but the write
itself is sent (`run_execute_of_owner`), and so does any transaction inside another
(`run_transaction_of_owner`). The outermost one is a BEGIN, what its body sends, and what
closes it (`run_transaction_of_idle`). -/
namespace SqlMaps
open Attempt
variable {σ α : Type}

namespace Entry

/-- A query, which does not control transactions. -/
structure Reads (e : Entry) : Prop where
  channel : e.channel = .query
  plain : e.isControl = false

/-- A query or a write, which does not control transactions. -/
structure Works (e : Entry) : Prop where
  channel : e.channel ≠ .batch
  plain : e.isControl = false

theorem Reads.works {e : Entry} (h : e.Reads) : e.Works :=
  ⟨by simp [h.channel], h.plain⟩

end Entry

/-- The transaction stays, and the log grows by entries as `P` says. -/
structure Sends (P : Entry → Prop) (s s' : Session σ) : Prop where
  transaction : s'.transaction = s.transaction
  log : ∃ es, s'.log = s.log ++ es ∧ ∀ e ∈ es, P e

instance (P : Entry → Prop) : Course (Sends P : Session σ → Session σ → Prop) where
  refl _ := ⟨rfl, [], by simp, by simp⟩
  trans h h' := by
    obtain ⟨ht, es, hlog, hes⟩ := h
    obtain ⟨ht', es', hlog', hes'⟩ := h'
    refine ⟨ht'.trans ht, es ++ es', by rw [hlog', hlog, List.append_assoc], ?_⟩
    intro e he
    exact (List.mem_append.mp he).elim (hes e) (hes' e)

namespace Sends
variable {P Q : Entry → Prop} {s s' : Session σ}

theorem mono (h : Sends P s s') (hPQ : ∀ e, P e → Q e) : Sends Q s s' := by
  obtain ⟨ht, es, hlog, hes⟩ := h
  exact ⟨ht, es, hlog, fun e he => hPQ e (hes e he)⟩

theorem of_sent {store : σ} {e : Entry} (h : P e) : Sends P s (s.sent store e) :=
  ⟨rfl, [e], rfl, by simpa using h⟩

end Sends

namespace Caller
variable (c : Caller σ)

/-! ### Looking at a database -/

theorem reads_query {command : Sql.Command} (h : command.isControl = false) :
    Follows (Sends Entry.Reads) (c.query command.text) := by
  intro s
  rw [run_query]
  exact .of_sent ⟨rfl, command.controls_text.trans h⟩

/-- The entry of the query for the version. -/
def versionQuery (succeeded : Bool) : Entry :=
  ⟨c.thread, .query, "PRAGMA user_version", succeeded⟩

theorem reads_versionQuery (succeeded : Bool) : (c.versionQuery succeeded).Reads :=
  ⟨rfl, Sql.Command.readVersion.controls_text⟩

/-- The version that the answer to that query gives. -/
def versionIn (rows : RowSet) : Except RunError Int64 :=
  match rows.record? 0 with
  | none => .error (.resultCount .one)
  | some r => r.integer (.at 0)

/-- The version that a session is found to have. -/
def foundVersion (s : Session σ) : Except RunError Int64 :=
  (c.engine.query "PRAGMA user_version" s.store).1.bind versionIn

/-- A session that has been asked for its version. -/
def asked (s : Session σ) : Session σ :=
  let r := c.engine.query "PRAGMA user_version" s.store
  s.sent r.2 (c.versionQuery r.1.isOk)

theorem run_userVersion (s : Session σ) : c.userVersion.run s = (c.foundVersion s, c.asked s) := by
  have hquery : (c.query Sql.Command.readVersion.text).run s =
      ((c.engine.query "PRAGMA user_version" s.store).1, c.asked s) := rfl
  rw [userVersion, run_bind, hquery, foundVersion]
  cases (c.engine.query "PRAGMA user_version" s.store).1 with
  | error e => rfl
  | ok rows =>
    simp only [Except.bind, versionIn]
    cases rows.record? 0 with
    | none => rfl
    | some r => rfl

theorem reads_asked (s : Session σ) : Sends Entry.Reads s (c.asked s) :=
  .of_sent (c.reads_versionQuery _)

section
variable {R : Session σ → Session σ → Prop} [Course R]

theorem follows_queryAbout (table : String) {command : Sql.Command}
    (h : Follows R (c.query command.text)) : Follows R (c.queryAbout table command) := by
  refine follows_bind (follows_settle h) fun result => ?_
  cases result with
  | ok rows => exact follows_pure _
  | error e => cases e <;> exact follows_throw _

/-- Looking at tables goes where the queries for their names, columns and rows go. -/
theorem follows_snapshotTables (hnames : Follows R (c.query Sql.Command.tableNames.text))
    (hcolumns : ∀ table, Follows R (c.query (Sql.Command.columns table).text))
    (hcount : ∀ table, Follows R (c.query (Sql.Command.countRows table).text)) :
    Follows R c.snapshotTables := by
  have htable : ∀ name, Follows R (c.snapshotTable name) := by
    intro name
    refine follows_bind (c.follows_queryAbout name (hcolumns name)) fun empty => ?_
    refine follows_bind (c.follows_queryAbout name (hcount name)) fun counted => ?_
    cases counted.record? 0 with
    | none => exact follows_bind (follows_pure _) fun _ => follows_pure _
    | some r => exact follows_bind (follows_settled _) fun _ => follows_pure _
  have hall : ∀ names, Follows R (c.snapshotAll names) := by
    intro names
    induction names with
    | nil => exact follows_pure _
    | cons name names ih =>
      rw [snapshotAll]
      split
      · exact ih
      · exact follows_bind (htable name) fun _ => follows_bind ih fun _ => follows_pure _
  exact follows_bind (c.follows_queryAbout _ hnames) fun _ => hall _

end

theorem reads_snapshotTables : Follows (Sends Entry.Reads) c.snapshotTables :=
  c.follows_snapshotTables (c.reads_query rfl) (fun _ => c.reads_query rfl)
    fun _ => c.reads_query rfl

/-! ### Writing inside a transaction -/

variable {s : Session σ} {t : Transaction}

theorem run_begin_of_owner (mode : TransactionMode) (ht : s.transaction = some t)
    (ho : t.owner = c.thread) :
    (c.begin mode).run s =
      (.ok (), { s with transaction := some { t with inner := t.inner + 1 } }) := by
  have hc := c.acquire_cases mode s
  rw [run_begin]
  cases hr : (c.acquire mode).run s with
  | mk r s' =>
    rw [hr] at hc
    cases hc with
    | begun hn => cases ht.symm.trans hn
    | refused hn => cases ht.symm.trans hn
    | nested ht' =>
      cases ht.symm.trans ht'
      rfl
    | busy ht' ho' =>
      cases ht.symm.trans ht'
      exact absurd ho ho'

theorem run_setSuccessful_of_owner (ht : s.transaction = some t) (ho : t.owner = c.thread) :
    c.setSuccessful.run s =
      (.ok (), if t.inner = 0 then { s with transaction := some { t with successful := true } }
        else s) := by
  simp only [setSuccessful, run_bind, run_owned, ht, if_pos ho]
  by_cases hi : t.inner = 0
  · simp only [if_pos hi, run_setTransaction]
  · simp only [if_neg hi, run_pure]

theorem run_finish_of_inner {n : Nat} (ht : s.transaction = some t) (ho : t.owner = c.thread)
    (hi : t.inner = n + 1) :
    c.finish.run s = (.ok .nested, { s with transaction := some { t with inner := n } }) := by
  simp only [finish, run_bind, run_owned, ht, if_pos ho, hi, run_setTransaction, run_pure]

/-- A transaction inside the one that its thread owns sends nothing of its own: the body runs a
level deeper, and no mark is made there. -/
theorem run_transaction_of_owner (mode : TransactionMode) {body : SessionM σ α} {u : Session σ}
    {r : Except RunError α} (ht : s.transaction = some t) (ho : t.owner = c.thread)
    (hbody : body.run { s with transaction := some { t with inner := t.inner + 1 } } =
      (r, { u with transaction := some { t with inner := t.inner + 1 } })) :
    (c.transaction mode body).run s =
      (r.map fun a => (a, .nested), { u with transaction := some t }) := by
  let inner : Transaction := { t with inner := t.inner + 1 }
  have hbegin := c.run_begin_of_owner mode ht ho
  have hmark : c.setSuccessful.run { u with transaction := some inner } =
      (.ok (), { u with transaction := some inner }) :=
    c.run_setSuccessful_of_owner (s := { u with transaction := some inner }) rfl ho
  have hinside : (do let a ← body; c.setSuccessful; return a : SessionM σ α).run
      { s with transaction := some inner } = (r, { u with transaction := some inner }) := by
    rw [run_bind, hbody]
    cases r with
    | error e => rfl
    | ok a =>
      show (c.setSuccessful >>= fun _ => pure a).run _ = _
      rw [run_bind, hmark]
      rfl
  have hfinish : c.finish.run { u with transaction := some inner } =
      (.ok .nested, { u with transaction := some t }) :=
    c.run_finish_of_inner (s := { u with transaction := some inner }) (t := inner) rfl ho rfl
  rw [transaction, run_bracket_of_ok hbegin hinside hfinish]
  cases r <;> rfl

/-- The level that a write opens is closed again, and the write is all that is sent. -/
theorem run_execute_of_owner (sql : String) (ht : s.transaction = some t)
    (ho : t.owner = c.thread) :
    (c.execute sql).run s =
      let r := c.engine.execute sql s.store
      (r.1, s.sent r.2 (c.entry .execute sql r.1)) := by
  have hnested := c.run_transaction_of_owner
    (u := s.sent (c.engine.execute sql s.store).2
      (c.entry .execute sql (c.engine.execute sql s.store).1))
    c.defaultMode ht ho (c.run_change sql _)
  rw [run_execute, hnested]
  simp only [← ht]
  rcases c.engine.execute sql s.store with ⟨_ | _, _⟩ <;> rfl

/-! ### A transaction of its own -/

/-- The session in which this thread has begun the transaction. -/
def begun (mode : TransactionMode) (s : Session σ) (store : σ) : Session σ :=
  { s.sent store ⟨c.thread, .batch, mode.beginStatement, true⟩ with
    transaction := some ⟨c.thread, 0, false⟩ }

/-- Beginning while nothing is open sends the BEGIN, and opens what the engine began. -/
theorem run_begin_of_idle (mode : TransactionMode) (ht : s.transaction = none) :
    (∃ e store, c.engine.batch mode.beginStatement s.store = (.error e, store) ∧
      (c.begin mode).run s =
        (.error e, s.sent store ⟨c.thread, .batch, mode.beginStatement, false⟩)) ∨
    ∃ store, c.engine.batch mode.beginStatement s.store = (.ok (), store) ∧
      (c.begin mode).run s = (.ok (), c.begun mode s store) := by
  have hc := c.acquire_cases mode s
  rw [run_begin]
  cases hr : (c.acquire mode).run s with
  | mk r s' =>
    rw [hr] at hc
    cases hc with
    | begun _ hbatch => exact .inr ⟨_, hbatch, rfl⟩
    | refused _ hbatch => exact .inl ⟨_, _, hbatch, rfl⟩
    | nested ht' => cases ht.symm.trans ht'
    | busy ht' => cases ht.symm.trans ht'

/-- Closing the outermost level ends the transaction. -/
theorem run_finish_of_outermost (ht : s.transaction = some t) (ho : t.owner = c.thread)
    (hi : t.inner = 0) :
    ∃ r store cs, c.finish.run s = (r, ⟨store, none, s.log ++ cs⟩) ∧
      c.Closing s.store t.successful r store cs := by
  have hc := c.finish_cases s
  cases hr : c.finish.run s with
  | mk r s' =>
    rw [hr] at hc
    cases hc with
    | notOpen hn => cases ht.symm.trans hn
    | notOwned ht' ho' =>
      cases ht.symm.trans ht'
      exact absurd ho ho'
    | nested ht' _ hi' =>
      cases ht.symm.trans ht'
      cases hi.symm.trans hi'
    | ended ht' _ _ hclosing =>
      cases ht.symm.trans ht'
      exact ⟨_, _, _, rfl, hclosing⟩

/-- A transaction that is begun while nothing is open, around a body that leaves it as it is. The
engine refuses to begin, and nothing else is sent; or the body runs, and behind it the
transaction is closed, marked by what came of the body. -/
theorem run_transaction_of_idle (mode : TransactionMode) {body : SessionM σ α}
    (ht : s.transaction = none)
    (hbody : ∀ store, (body.run (c.begun mode s store)).2.transaction =
      some ⟨c.thread, 0, false⟩) :
    (∃ e store, c.engine.batch mode.beginStatement s.store = (.error e, store) ∧
      (c.transaction mode body).run s =
        (.error e, s.sent store ⟨c.thread, .batch, mode.beginStatement, false⟩)) ∨
    ∃ store, c.engine.batch mode.beginStatement s.store = (.ok (), store) ∧
      let inside := body.run (c.begun mode s store)
      ∃ o store' cs, c.Closing inside.2.store inside.1.isOk o store' cs ∧
        (c.transaction mode body).run s =
          (do return (← inside.1, ← o), ⟨store', none, inside.2.log ++ cs⟩) := by
  obtain ⟨e, store, hbatch, hbegin⟩ | ⟨store, hbatch, hbegin⟩ := c.run_begin_of_idle mode ht
  · exact .inl ⟨e, store, hbatch, by rw [transaction, run_bracket_of_error hbegin]⟩
  · have hopen := hbody store
    cases hrun : body.run (c.begun mode s store) with
    | mk r left =>
      rw [hrun] at hopen
      have hinside : (do let a ← body; c.setSuccessful; return a : SessionM σ α).run
          (c.begun mode s store) =
            (r, { left with transaction := some ⟨c.thread, 0, r.isOk⟩ }) := by
        rw [run_bind, hrun]
        cases r with
        | error e =>
          have hsame : left = { left with transaction := some ⟨c.thread, 0, false⟩ } := by
            rw [← hopen]
          exact congrArg (Prod.mk _) hsame
        | ok a =>
          show (c.setSuccessful >>= fun _ => pure a).run left = _
          rw [run_bind, c.run_setSuccessful_of_owner hopen rfl]
          rfl
      obtain ⟨o, store', cs, hfinish, hclosing⟩ := c.run_finish_of_outermost
        (s := { left with transaction := some ⟨c.thread, 0, r.isOk⟩ }) rfl rfl rfl
      exact .inr ⟨store, hbatch, o, store', cs, hrun ▸ hclosing, by
        rw [transaction, run_bracket_of_ok hbegin hinside hfinish, hrun]⟩

end Caller

end SqlMaps
