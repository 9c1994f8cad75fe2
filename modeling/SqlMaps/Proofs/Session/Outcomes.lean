import SqlMaps.Proofs.Session.Attempt

/-! What each call does to a session: every way it can come out, and what it leaves.

`Acquired`, `Marked` and `Finished` name the outcomes of beginning, marking and closing a
level. The lemmas that end in `_cases` say that there are no others, so whatever holds of
the outcomes holds of the calls, and nothing later looks inside the calls again. -/
namespace SqlMaps

namespace Session

/-- The session after a statement: the state the engine left, and an entry in the log. -/
def sent (s : Session σ) (store : σ) (e : Entry) : Session σ :=
  { s with store, log := s.log ++ [e] }

@[simp] theorem sent_store (s : Session σ) (store : σ) (e : Entry) :
    (s.sent store e).store = store := rfl

@[simp] theorem sent_transaction (s : Session σ) (store : σ) (e : Entry) :
    (s.sent store e).transaction = s.transaction := rfl

@[simp] theorem sent_log (s : Session σ) (store : σ) (e : Entry) :
    (s.sent store e).log = s.log ++ [e] := rfl

end Session

namespace Caller
variable {σ α : Type} (c : Caller σ)

/-- The entry of a statement that this caller sends. -/
def entry (channel : Channel) (sql : String) (r : Except RunError α) : Entry :=
  ⟨c.thread, channel, sql, r.isOk⟩

theorem run_batch (sql : String) (s : Session σ) :
    (c.batch sql).run s =
      let r := c.engine.batch sql s.store
      (r.1, s.sent r.2 (c.entry .batch sql r.1)) := rfl

theorem run_change (sql : String) (s : Session σ) :
    (c.change sql).run s =
      let r := c.engine.execute sql s.store
      (r.1, s.sent r.2 (c.entry .execute sql r.1)) := rfl

theorem run_query (sql : String) (s : Session σ) :
    (c.query sql).run s =
      let r := c.engine.query sql s.store
      (r.1, s.sent r.2 (c.entry .query sql r.1)) := rfl

theorem run_setTransaction (t : Option Transaction) (s : Session σ) :
    (setTransaction t).run s = (.ok (), { s with transaction := t }) := rfl

theorem text_begin (mode : TransactionMode) :
    (Sql.Command.begin mode).text = mode.beginStatement := rfl

/-! ### Beginning a level -/

/-- The ways in which beginning a level comes out. -/
inductive Acquired (mode : TransactionMode) (s : Session σ) :
    Except RunError Bool → Session σ → Prop where
  /-- Nothing was open, and the engine began. -/
  | begun {store : σ} : s.transaction = none →
      c.engine.batch mode.beginStatement s.store = (.ok (), store) →
      Acquired mode s (.ok true)
        { s.sent store (c.entry .batch mode.beginStatement (.ok () : Except RunError Unit)) with
          transaction := some ⟨c.thread, 0, false⟩ }
  /-- Nothing was open, and the engine refused to begin. -/
  | refused {e : RunError} {store : σ} : s.transaction = none →
      c.engine.batch mode.beginStatement s.store = (.error e, store) →
      Acquired mode s (.error e)
        (s.sent store (c.entry .batch mode.beginStatement (.error e : Except RunError Unit)))
  /-- This thread owns the open transaction. -/
  | nested {t : Transaction} : s.transaction = some t → t.owner = c.thread →
      Acquired mode s (.ok true) { s with transaction := some { t with inner := t.inner + 1 } }
  /-- Another thread owns it. -/
  | busy {t : Transaction} : s.transaction = some t → t.owner ≠ c.thread →
      Acquired mode s (.ok false) s

theorem acquire_cases (mode : TransactionMode) (s : Session σ) :
    c.Acquired mode s ((c.acquire mode).run s).1 ((c.acquire mode).run s).2 := by
  simp only [acquire, Attempt.run_bind, Attempt.run_get]
  cases ht : s.transaction with
  | none =>
    simp only [Attempt.run_bind, run_batch, text_begin]
    cases hb : c.engine.batch mode.beginStatement s.store with
    | mk r store =>
      cases r with
      | error e => exact .refused ht hb
      | ok _ => exact .begun ht hb
  | some t =>
    by_cases ho : t.owner = c.thread
    · simp only [if_pos ho, Attempt.run_bind, run_setTransaction, Attempt.run_pure]
      exact .nested ht ho
    · simp only [if_neg ho, Attempt.run_pure]
      exact .busy ht ho

/-- A level that has been begun is its thread's. -/
theorem Acquired.owner {mode : TransactionMode} {s s' : Session σ}
    (h : c.Acquired mode s (.ok true) s') : s'.owner? = some c.thread := by
  cases h with
  | begun => rfl
  | nested ht ho => exact congrArg some ho

/-- Beginning fails as acquiring fails, and where acquiring says no. -/
theorem run_begin (mode : TransactionMode) (s : Session σ) :
    (c.begin mode).run s =
      match (c.acquire mode).run s with
      | (.ok true, s') => (.ok (), s')
      | (.ok false, s') => (.error .busy, s')
      | (.error e, s') => (.error e, s') := by
  simp only [begin, Attempt.run_bind]
  rcases (c.acquire mode).run s with ⟨_ | _ | _, _⟩ <;> rfl

/-- A level that was begun was acquired. -/
theorem acquired_of_begin {mode : TransactionMode} {s s' : Session σ}
    (h : (c.begin mode).run s = (.ok (), s')) : c.Acquired mode s (.ok true) s' := by
  have hc := c.acquire_cases mode s
  rw [run_begin] at h
  generalize (c.acquire mode).run s = out at h hc
  obtain ⟨_ | _ | _, _⟩ := out <;> cases h
  exact hc

/-! ### Marking -/

/-- The ways in which marking the transaction comes out. -/
inductive Marked (s : Session σ) : Except RunError Unit → Session σ → Prop where
  | notOpen : s.transaction = none → Marked s (.error .transactionNotOpen) s
  | notOwned {t : Transaction} : s.transaction = some t → t.owner ≠ c.thread →
      Marked s (.error .transactionNotOwned) s
  /-- Further levels are open; the mark is not made. -/
  | inside {t : Transaction} : s.transaction = some t → t.owner = c.thread → t.inner ≠ 0 →
      Marked s (.ok ()) s
  | marked {t : Transaction} : s.transaction = some t → t.owner = c.thread → t.inner = 0 →
      Marked s (.ok ()) { s with transaction := some { t with successful := true } }

/-- Which transaction a thread owns. -/
theorem run_owned (s : Session σ) :
    c.owned.run s =
      match s.transaction with
      | none => (.error .transactionNotOpen, s)
      | some t => if t.owner = c.thread then (.ok t, s) else (.error .transactionNotOwned, s) := by
  simp only [owned, Attempt.run_bind, Attempt.run_get]
  cases s.transaction with
  | none => rfl
  | some t => by_cases ho : t.owner = c.thread <;> simp [ho]

theorem setSuccessful_cases (s : Session σ) :
    c.Marked s (c.setSuccessful.run s).1 (c.setSuccessful.run s).2 := by
  simp only [setSuccessful, Attempt.run_bind, run_owned]
  cases ht : s.transaction with
  | none => exact .notOpen ht
  | some t =>
    by_cases ho : t.owner = c.thread
    · by_cases hi : t.inner = 0
      · simp only [if_pos ho, if_pos hi, run_setTransaction]
        exact .marked ht ho hi
      · simp only [if_pos ho, if_neg hi, Attempt.run_pure]
        exact .inside ht ho hi
    · simp only [if_neg ho]
      exact .notOwned ht ho

/-! ### Closing a level -/

/-- How a transaction ends, marked to be committed or not: the result, the state that the
engine leaves, and the statements sent. -/
inductive Closing (store : σ) :
    (marked : Bool) → Except RunError Outcome → σ → List Entry → Prop where
  | committed {store' : σ} : c.engine.batch "COMMIT" store = (.ok (), store') →
      Closing store true (.ok .committed) store'
        [c.entry .batch "COMMIT" (.ok () : Except RunError Unit)]
  /-- What cannot be committed is rolled back, and the first error remains. -/
  | commitFailed {e : RunError} {r : Except RunError Unit} {between store' : σ} :
      c.engine.batch "COMMIT" store = (.error e, between) →
      c.engine.batch "ROLLBACK" between = (r, store') →
      Closing store true (.error e) store'
        [c.entry .batch "COMMIT" (.error e : Except RunError Unit), c.entry .batch "ROLLBACK" r]
  | rolledBack {r : Except RunError Unit} {store' : σ} :
      c.engine.batch "ROLLBACK" store = (r, store') →
      Closing store false (r.map fun _ => .rolledBack) store' [c.entry .batch "ROLLBACK" r]

theorem text_commit : Sql.Command.commit.text = "COMMIT" := rfl

theorem text_rollback : Sql.Command.rollback.text = "ROLLBACK" := rfl

theorem run_rollback (s : Session σ) :
    c.rollback.run s =
      let r := c.engine.batch "ROLLBACK" s.store
      (r.1.map fun _ => .rolledBack, s.sent r.2 (c.entry .batch "ROLLBACK" r.1)) := by
  simp only [rollback, Attempt.run_bind, run_batch, text_rollback]
  rcases c.engine.batch "ROLLBACK" s.store with ⟨_ | _, _⟩ <;> rfl

theorem commit_closing (s : Session σ) :
    ∃ r store cs, c.commit.run s = (r, { s with store, log := s.log ++ cs }) ∧
      c.Closing s.store true r store cs := by
  simp only [commit, Attempt.run_bind, Attempt.run_settle, run_batch, text_commit]
  cases hb : c.engine.batch "COMMIT" s.store with
  | mk r store =>
    cases r with
    | ok _ => exact ⟨_, _, _, rfl, .committed hb⟩
    | error e =>
      simp only [Attempt.run_bind, Attempt.run_settle, run_batch, text_rollback]
      refine ⟨_, _, _, ?_, .commitFailed hb rfl⟩
      simp [Session.sent, entry]

theorem rollback_closing (s : Session σ) :
    ∃ r store cs, c.rollback.run s = (r, { s with store, log := s.log ++ cs }) ∧
      c.Closing s.store false r store cs := by
  rw [run_rollback]
  exact ⟨_, _, _, rfl, .rolledBack rfl⟩

/-- The ways in which closing a level comes out. -/
inductive Finished (s : Session σ) : Except RunError Outcome → Session σ → Prop where
  | notOpen : s.transaction = none → Finished s (.error .transactionNotOpen) s
  | notOwned {t : Transaction} : s.transaction = some t → t.owner ≠ c.thread →
      Finished s (.error .transactionNotOwned) s
  | nested {t : Transaction} {n : Nat} : s.transaction = some t → t.owner = c.thread →
      t.inner = n + 1 → Finished s (.ok .nested) { s with transaction := some { t with inner := n } }
  /-- The outermost level: the transaction ends. -/
  | ended {t : Transaction} {r : Except RunError Outcome} {store : σ} {cs : List Entry} :
      s.transaction = some t → t.owner = c.thread → t.inner = 0 →
      c.Closing s.store t.successful r store cs → Finished s r ⟨store, none, s.log ++ cs⟩

theorem finish_cases (s : Session σ) :
    c.Finished s (c.finish.run s).1 (c.finish.run s).2 := by
  simp only [finish, Attempt.run_bind, run_owned]
  cases ht : s.transaction with
  | none => exact .notOpen ht
  | some t =>
    by_cases ho : t.owner = c.thread
    · cases hi : t.inner with
      | succ n =>
        simp only [if_pos ho, hi, Attempt.run_bind, run_setTransaction, Attempt.run_pure]
        exact .nested ht ho hi
      | zero =>
        simp only [if_pos ho, hi, Attempt.run_bind, run_setTransaction]
        cases hm : t.successful with
        | true =>
          obtain ⟨r, store, cs, hrun, hc⟩ := c.commit_closing { s with transaction := none }
          simp only [if_true, hrun]
          exact .ended ht ho hi (hm ▸ hc)
        | false =>
          obtain ⟨r, store, cs, hrun, hc⟩ := c.rollback_closing { s with transaction := none }
          simp only [Bool.false_eq_true, if_false, hrun]
          exact .ended ht ho hi (hm ▸ hc)
    · simp only [if_neg ho]
      exact .notOwned ht ho

/-! ### Executing a statement -/

/-- An execute is a transaction around its statement. -/
theorem run_execute (sql : String) (s : Session σ) :
    (c.execute sql).run s =
      let p := (c.transaction c.defaultMode (c.change sql)).run s
      (p.1.map Prod.fst, p.2) :=
  Attempt.run_bind_pure (c.transaction c.defaultMode (c.change sql)) Prod.fst s

/-! ### Closing the session -/

/-- The ways in which closing the session comes out. -/
inductive Closed (s : Session σ) : Except RunError Unit → Session σ → Prop where
  | idle : s.transaction = none → Closed s (.ok ()) s
  | rolledBack {t : Transaction} {r : Except RunError Unit} {store : σ} :
      s.transaction = some t → c.engine.batch "ROLLBACK" s.store = (r, store) →
      Closed s r ⟨store, none, s.log ++ [c.entry .batch "ROLLBACK" r]⟩

theorem close_cases (s : Session σ) : c.Closed s (c.close.run s).1 (c.close.run s).2 := by
  simp only [close, Attempt.run_bind, Attempt.run_get, Session.inTransaction]
  rcases Option.eq_none_or_eq_some s.transaction with ht | ⟨t, ht⟩
  · simp only [ht, Option.isSome_none, Bool.false_eq_true, if_false, Attempt.run_pure]
    exact .idle ht
  · have hrun : (discard c.rollback : SessionM σ Unit).run { s with transaction := none } =
        let r := c.engine.batch "ROLLBACK" s.store
        (r.1, ⟨r.2, none, s.log ++ [c.entry .batch "ROLLBACK" r.1]⟩) := by
      show (c.rollback >>= fun _ => pure ()).run _ = _
      rw [Attempt.run_bind, run_rollback]
      rcases c.engine.batch "ROLLBACK" s.store with ⟨_ | _, _⟩ <;> rfl
    simp only [ht, Option.isSome_some, if_true, Attempt.run_bind, run_setTransaction, hrun]
    exact .rolledBack ht rfl

end Caller

end SqlMaps
