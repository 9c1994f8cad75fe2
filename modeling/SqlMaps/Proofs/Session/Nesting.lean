import SqlMaps.Engine.Script
import SqlMaps.Proofs.Session.Sending

/-! Transactions inside transactions.

A `Body` is what runs in a transaction: it executes statements, makes queries and runs
transactions of its own, and after each goes on as it likes with what came of it. It opens,
marks and closes no level by hand. `flattened` is the same body with its inner transactions
left out: only their statements are sent.

A thread that owns the transaction cannot tell a body from its flattened form
(`Body.run_of_owner`). So a transaction with others inside, as deep as they go, is one BEGIN,
the statements of the bodies, and one ending (`transaction_of_nested`). -/
namespace SqlMaps
open Attempt
variable {σ α β : Type}

/-- What runs in a transaction. An error of a call is left at that, unless the body goes on
to be done with it. -/
inductive Body : Type → Type 1 where
  | done {α : Type} (result : Except RunError α) : Body α
  | execute {α : Type} (sql : String) (next : Except RunError Nat → Body α) : Body α
  | query {α : Type} (sql : String) (next : Except RunError RowSet → Body α) : Body α
  | transaction {α β : Type} (mode : TransactionMode) (inner : Body β)
      (next : Except RunError (β × Outcome) → Body α) : Body α

namespace Body

/-- The calls of a body. -/
def run (c : Caller σ) {α : Type} : Body α → SessionM σ α
  | .done result => settled result
  | .execute sql next => settle (c.execute sql) >>= fun result => run c (next result)
  | .query sql next => settle (c.query sql) >>= fun result => run c (next result)
  | .transaction mode inner next =>
    settle (c.transaction mode (run c inner)) >>= fun result => run c (next result)

/-- The statements of a body and of the transactions inside it, which are told that they
have been nested. -/
def flattened (c : Caller σ) {α : Type} : Body α → SessionM σ α
  | .done result => settled result
  | .execute sql next => settle (c.change sql) >>= fun result => flattened c (next result)
  | .query sql next => settle (c.query sql) >>= fun result => flattened c (next result)
  | .transaction _ inner next =>
    settle (flattened c inner) >>= fun result =>
      flattened c (next (result.map fun b => (b, .nested)))

/-- What the transactions inside a body report that succeed, as the body is run on a session. -/
def reports (c : Caller σ) {α : Type} : Body α → Session σ → List Outcome
  | .done _, _ => []
  | .execute sql next, s =>
    let r := (c.execute sql).run s
    reports c (next r.1) r.2
  | .query sql next, s =>
    let r := (c.query sql).run s
    reports c (next r.1) r.2
  | .transaction mode inner next, s =>
    let within := match (c.begin mode).run s with
      | (.ok _, opened) => reports c inner opened
      | (.error _, _) => []
    let r := (c.transaction mode (run c inner)).run s
    within ++ r.1.toOption.toList.map Prod.snd ++ reports c (next r.1) r.2

end Body

/-! ### What has nothing to do with the transaction -/

/-- The computation neither asks for the transaction nor changes it. -/
def Aloof (x : SessionM σ α) : Prop :=
  ∀ (s : Session σ) (t : Option Transaction),
    x.run { s with transaction := t } = ((x.run s).1, { (x.run s).2 with transaction := t })

theorem aloof_settled (r : Except RunError α) : Aloof (settled r : SessionM σ α) :=
  fun _ _ => rfl

theorem aloof_settle {x : SessionM σ α} (h : Aloof x) : Aloof (settle x) := by
  intro s t
  rw [run_settle, run_settle, h s t]

theorem aloof_bind {x : SessionM σ α} {f : α → SessionM σ β} (hx : Aloof x)
    (hf : ∀ a, Aloof (f a)) : Aloof (x >>= f) := by
  intro s t
  rw [run_bind, run_bind, hx s t]
  cases x.run s with
  | mk r s' =>
    cases r with
    | error e => rfl
    | ok a => exact hf a s' t

namespace Body
variable (c : Caller σ)

theorem aloof_flattened (body : Body α) : Aloof (body.flattened c) := by
  induction body with
  | done result => exact aloof_settled result
  | execute sql next ih => exact aloof_bind (aloof_settle fun _ _ => rfl) ih
  | query sql next ih => exact aloof_bind (aloof_settle fun _ _ => rfl) ih
  | transaction mode inner next ihInner ihNext =>
    exact aloof_bind (aloof_settle ihInner) fun result => ihNext _

/-- A flattened body sends statements of its thread, none of which is a control statement. -/
theorem follows_flattened (body : Body α) :
    Follows (Sends fun e => e.channel ≠ .batch ∧ e.thread = c.thread) (body.flattened c) := by
  induction body with
  | done result => exact follows_settled result
  | execute sql next ih =>
    refine follows_bind (follows_settle fun s => ?_) ih
    exact .of_sent ⟨Channel.noConfusion, rfl⟩
  | query sql next ih =>
    refine follows_bind (follows_settle fun s => ?_) ih
    exact .of_sent ⟨Channel.noConfusion, rfl⟩
  | transaction mode inner next ihInner ihNext =>
    exact follows_bind (follows_settle ihInner) fun result => ihNext _

/-! ### Bodies in a transaction of their thread -/

variable {c} {s : Session σ} {t : Transaction}

/-- A transaction inside another is its body, flattened; it reports that it was nested. -/
theorem run_nested {inner : Body β} (mode : TransactionMode) (ht : s.transaction = some t)
    (ho : t.owner = c.thread)
    (hinner : ∀ {u : Session σ} {v : Transaction}, u.transaction = some v → v.owner = c.thread →
      (inner.run c).run u = (inner.flattened c).run u) :
    (c.transaction mode (inner.run c)).run s =
      (((inner.flattened c).run s).1.map fun b => (b, .nested),
        ((inner.flattened c).run s).2) := by
  have hkept : ((inner.flattened c).run s).2.transaction = some t :=
    (follows_flattened c inner s).transaction.trans ht
  have hdeeper : (inner.run c).run { s with transaction := some { t with inner := t.inner + 1 } } =
      (((inner.flattened c).run s).1, { ((inner.flattened c).run s).2 with
        transaction := some { t with inner := t.inner + 1 } }) :=
    (hinner (v := { t with inner := t.inner + 1 }) rfl ho).trans (aloof_flattened c inner s _)
  rw [c.run_transaction_of_owner mode ht ho hdeeper, ← hkept]

/-- The thread that owns the transaction can leave its inner transactions out. -/
theorem run_of_owner (body : Body α) {s : Session σ} {t : Transaction}
    (ht : s.transaction = some t) (ho : t.owner = c.thread) :
    (body.run c).run s = (body.flattened c).run s := by
  induction body generalizing s t with
  | done result => rfl
  | execute sql next ih =>
    rw [run, flattened, run_bind, run_bind, run_settle, run_settle,
      c.run_execute_of_owner sql ht ho, c.run_change]
    exact ih _ ht ho
  | query sql next ih =>
    rw [run, flattened, run_bind, run_bind]
    exact ih _ ht ho
  | transaction mode inner next ihInner ihNext =>
    rw [run, flattened, run_bind, run_bind, run_settle, run_settle,
      run_nested mode ht ho ihInner]
    exact ihNext _ ((follows_flattened c inner s).transaction.trans ht) ho

/-- Whatever succeeds inside the transaction of its thread reports that it was nested. -/
theorem nested_of_mem_reports (body : Body α) {s : Session σ} {t : Transaction}
    (ht : s.transaction = some t) (ho : t.owner = c.thread) :
    ∀ outcome ∈ body.reports c s, outcome = .nested := by
  induction body generalizing s t with
  | done result => simp [reports]
  | execute sql next ih =>
    rw [reports, c.run_execute_of_owner sql ht ho]
    exact ih _ ht ho
  | query sql next ih => exact ih _ ht ho
  | transaction mode inner next ihInner ihNext =>
    have hkept := (follows_flattened c inner s).transaction.trans ht
    rw [reports, c.run_begin_of_owner mode ht ho,
      run_nested mode ht ho fun hu hv => inner.run_of_owner hu hv]
    intro outcome hmem
    simp only [List.mem_append] at hmem
    obtain (hmem | hmem) | hmem := hmem
    · exact ihInner (t := { t with inner := t.inner + 1 }) rfl ho outcome hmem
    · cases hr : ((inner.flattened c).run s).1 with
      | error e => simp [hr, Except.map, Except.toOption] at hmem
      | ok b => simpa [hr, Except.map, Except.toOption] using hmem
    · exact ihNext _ hkept ho outcome hmem

end Body

/-! ### The outermost transaction -/

/-- Transactions inside transactions are one transaction. Whatever the body does, with
transactions inside it as deep as they go, the session is idle in the end, and sends one BEGIN,
in the outermost mode. If that fails, nothing else is sent. If it succeeds, the statements of
the bodies follow, and then the one closing: a COMMIT if the outermost body succeeded, rolled
back if it fails, and else a ROLLBACK. Inner transactions, whether they fail or not, send
nothing of their own and do nothing but their statements; those that succeed report that they
were nested. -/
theorem transaction_of_nested (c : Caller σ) (mode : TransactionMode) (body : Body α)
    (s : Session σ) (hidle : s.transaction = none) :
    let whole := (c.transaction mode (body.run c)).run s
    whole.2.transaction = none ∧
    ((∃ e store, c.engine.batch mode.beginStatement s.store = (.error e, store) ∧
        whole.1 = .error e ∧
        whole.2.log = s.log ++ [⟨c.thread, .batch, mode.beginStatement, false⟩]) ∨
      ∃ store, c.engine.batch mode.beginStatement s.store = (.ok (), store) ∧
        let inside := (body.run c).run (c.begun mode s store)
        inside = (body.flattened c).run (c.begun mode s store) ∧
        (∀ outcome ∈ body.reports c (c.begun mode s store), outcome = .nested) ∧
        ∃ es closed cs,
          inside.2.log =
            s.log ++ ⟨c.thread, .batch, mode.beginStatement, true⟩ :: es ∧
          (∀ e ∈ es, e.channel ≠ .batch ∧ e.thread = c.thread) ∧
          c.Closing inside.2.store inside.1.isOk closed whole.2.store cs ∧
          whole.1 = (do return (← inside.1, ← closed)) ∧
          whole.2.log =
            s.log ++ ⟨c.thread, .batch, mode.beginStatement, true⟩ :: (es ++ cs)) := by
  intro whole
  have hrun : ∀ store, (body.run c).run (c.begun mode s store) =
      (body.flattened c).run (c.begun mode s store) := fun store => body.run_of_owner rfl rfl
  have hsends : ∀ store, Sends (fun e => e.channel ≠ .batch ∧ e.thread = c.thread)
      (c.begun mode s store) ((body.run c).run (c.begun mode s store)).2 := fun store => by
    rw [hrun]
    exact body.follows_flattened c _
  obtain ⟨e, store, hbatch, hwhole⟩ | ⟨store, hbatch, closed, store', cs, hclosing, hwhole⟩ :=
    c.run_transaction_of_idle mode hidle fun store => (hsends store).transaction
  · have hended : whole = (.error e, s.sent store ⟨c.thread, .batch, mode.beginStatement, false⟩) :=
      hwhole
    rw [hended]
    exact ⟨hidle, .inl ⟨e, store, hbatch, rfl, rfl⟩⟩
  · obtain ⟨-, es, hlog, hes⟩ := hsends store
    have hlog' : ((body.run c).run (c.begun mode s store)).2.log =
        s.log ++ ⟨c.thread, .batch, mode.beginStatement, true⟩ :: es := by
      rw [hlog]
      simp [Caller.begun]
    have hended : whole = _ := hwhole
    rw [hended]
    refine ⟨rfl, .inr ⟨store, hbatch, hrun store, body.nested_of_mem_reports rfl rfl, es, closed, cs,
      hlog', hes, hclosing, rfl, ?_⟩⟩
    simp [hlog']

/-- A body with a transaction in it that fails, and with one that executes as many statements
as the query inside it finds rows. -/
def retrying : Body Nat :=
  .transaction .exclusive
    (.execute "DELETE FROM locked" fun deleted => .done deleted) fun _ =>
  .transaction .deferred
    (.query "SELECT a FROM t" fun found => match found with
      | .ok rows => .execute "DELETE FROM t" fun deleted => .done (deleted.map (· + rows.size))
      | .error e => .done (.error e)) fun answer =>
  .done (answer.map Prod.fst)

/-- The rules of an engine for it. -/
def locked : List Rule :=
  [{ Rule.fallback with
      sql := some "DELETE FROM locked", failure := some (.database "table is locked") },
    { Rule.fallback with sql := some "SELECT a FROM t", rows := ⟨["a"], [[.null], [.null]]⟩ }]

theorem transaction_of_nested_retrying :
    let c : Caller (List Rule) := ⟨Script.engine, .immediate, "main"⟩
    let whole := (c.transaction .immediate (retrying.run c)).run (.start locked)
    (Session.start locked).transaction = none ∧ whole.1 = .ok (3, .committed) ∧
      whole.2.transaction = none ∧
      retrying.reports c (c.begun .immediate (.start locked) locked) = [.nested] ∧
      whole.2.log.map (fun e => (e.channel, e.sql, e.succeeded)) =
        [(.batch, "BEGIN IMMEDIATE", true), (.execute, "DELETE FROM locked", false),
          (.query, "SELECT a FROM t", true), (.execute, "DELETE FROM t", true),
          (.batch, "COMMIT", true)] := by
  intro c whole
  have hclosed := (transaction_of_nested c .immediate retrying (.start locked) rfl).1
  refine ⟨rfl, by rfl, hclosed, by rfl, by decide +kernel⟩

end SqlMaps
