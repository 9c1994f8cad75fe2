import SqlMaps.Engine.Script
import SqlMaps.Proofs.Session.Steps

/-! The state of a session and the control statements it has sent.

`Blocks` is the grammar of those statements: a BEGIN that failed, or one that succeeded
and is closed, before the next, by exactly one `Ending`. Every action keeps the log of a
session in it, open exactly while a thread owns the transaction (`next_blocks`).

A session holds its transaction as one value. `Registers` holds depth, owner and mark
apart, where they could come to disagree and the depth could be taken below zero;
`next_registers` says that neither happens. -/
namespace SqlMaps
variable {σ : Type}

/-! ### Blocks of control statements -/

namespace Entry

/-- Whether the statement controls transactions. -/
def isControl (e : Entry) : Bool := controls e.sql

/-- The statement begins a transaction. -/
def Begins (e : Entry) : Prop := e.sql ∈ TransactionMode.all.map TransactionMode.beginStatement

end Entry

/-- The statements that close a transaction. -/
inductive Ending : List Entry → Prop where
  | committed {e : Entry} : e.sql = "COMMIT" → e.succeeded = true → Ending [e]
  | commitFailed {e r : Entry} : e.sql = "COMMIT" → e.succeeded = false → r.sql = "ROLLBACK" →
      Ending [e, r]
  | rolledBack {e : Entry} : e.sql = "ROLLBACK" → Ending [e]

/-- Control statements in blocks. The last block may be open; its BEGIN was then sent by
the thread given. -/
inductive Blocks : Option Thread → List Entry → Prop where
  | nil : Blocks none []
  | refused {es : List Entry} {e : Entry} : Blocks none es → e.Begins → e.succeeded = false →
      Blocks none (es ++ [e])
  | begun {es : List Entry} {e : Entry} : Blocks none es → e.Begins → e.succeeded = true →
      Blocks (some e.thread) (es ++ [e])
  | ended {es cs : List Entry} {thread : Thread} : Blocks (some thread) es → Ending cs →
      Blocks none (es ++ cs)

namespace Session

/-- The control statements sent. -/
def controlLog (s : Session σ) : List Entry :=
  s.log.filter Entry.isControl

/-- The state of a session fits together, and fits the control statements sent. -/
structure InStep (s : Session σ) : Prop where
  /-- Levels are open exactly while there is an owner. -/
  depth : s.depth = 0 ↔ s.owner? = none
  successful : s.successful = true → 1 ≤ s.depth
  /-- The last block is open exactly while there is an owner, who began it. -/
  blocks : Blocks s.owner? s.controlLog

theorem inStep_of_blocks {s : Session σ} (h : Blocks s.owner? s.controlLog) : s.InStep := by
  refine ⟨?_, ?_, h⟩ <;> cases ht : s.transaction <;> simp [depth, owner?, successful, ht]

theorem owner?_of_none {s : Session σ} (h : s.transaction = none) : s.owner? = none := by
  simp [owner?, h]

theorem owner?_of_some {s : Session σ} {t : Transaction} (h : s.transaction = some t) :
    s.owner? = some t.owner := by
  simp [owner?, h]

/-- A plain statement is no control statement. -/
theorem controlLog_sent (s : Session σ) (store : σ) {e : Entry} (h : e.isControl = false) :
    (s.sent store e).controlLog = s.controlLog := by
  simp [controlLog, h]

/-- Control statements come to the end of the control log. -/
theorem controlLog_append {s s' : Session σ} {cs : List Entry} (hlog : s'.log = s.log ++ cs)
    (h : ∀ e ∈ cs, e.isControl = true) : s'.controlLog = s.controlLog ++ cs := by
  rw [controlLog, hlog, List.filter_append, List.filter_eq_self.mpr h]
  rfl

end Session

theorem Ending.isControl {cs : List Entry} (h : Ending cs) : ∀ e ∈ cs, e.isControl = true := by
  have hc : controls "COMMIT" = true := by decide
  have hr : controls "ROLLBACK" = true := by decide
  cases h with
  | committed h => simp [Entry.isControl, h, hc]
  | commitFailed h _ h' => simp [Entry.isControl, h, h', hc, hr]
  | rolledBack h => simp [Entry.isControl, h, hr]

/-! ### What the actions send -/

namespace Caller
variable {c : Caller σ} {s s' : Session σ}

theorem begins_entry (c : Caller σ) (mode : TransactionMode) (r : Except RunError Unit) :
    (c.entry .batch mode.beginStatement r).Begins := by
  cases mode <;> simp [entry, Entry.Begins, TransactionMode.all]

theorem isControl_entry (c : Caller σ) (mode : TransactionMode) (r : Except RunError Unit) :
    (c.entry .batch mode.beginStatement r).isControl = true := by
  cases mode <;> exact of_decide_eq_true rfl

theorem Closing.ending {store store' : σ} {marked : Bool} {r : Except RunError Outcome}
    {cs : List Entry} (h : c.Closing store marked r store' cs) : Ending cs := by
  cases h with
  | committed => exact .committed rfl rfl
  | commitFailed => exact .commitFailed rfl rfl rfl
  | rolledBack => exact .rolledBack rfl

theorem Acquired.blocks {mode : TransactionMode} {r : Except RunError Bool}
    (h : c.Acquired mode s r s') (hb : Blocks s.owner? s.controlLog) :
    Blocks s'.owner? s'.controlLog := by
  cases h with
  | begun ht hbatch =>
    rw [Session.owner?_of_none ht] at hb
    rw [Session.controlLog_append rfl (by simpa using c.isControl_entry mode _)]
    exact .begun hb (c.begins_entry mode _) rfl
  | refused ht hbatch =>
    rw [Session.owner?_of_none ht] at hb
    rw [Session.controlLog_append rfl (by simpa using c.isControl_entry mode _)]
    exact (Session.owner?_of_none ht) ▸ .refused hb (c.begins_entry mode _) rfl
  | nested ht ho =>
    rw [Session.owner?_of_some ht] at hb
    exact hb
  | busy ht ho => exact hb

theorem Marked.blocks {r : Except RunError Unit} (h : c.Marked s r s')
    (hb : Blocks s.owner? s.controlLog) : Blocks s'.owner? s'.controlLog := by
  cases h with
  | notOpen ht => exact hb
  | notOwned ht ho => exact hb
  | inside ht ho hi => exact hb
  | marked ht ho hi =>
    rw [Session.owner?_of_some ht] at hb
    exact hb

/-- The statements that close a transaction close the open block. -/
theorem blocks_ended {t : Transaction} {store : σ} {cs : List Entry}
    (ht : s.transaction = some t) (hcs : Ending cs) (hb : Blocks s.owner? s.controlLog) :
    Blocks none (Session.controlLog ⟨store, none, s.log ++ cs⟩) := by
  rw [Session.owner?_of_some ht] at hb
  rw [Session.controlLog_append rfl hcs.isControl]
  exact .ended hb hcs

theorem Finished.blocks {r : Except RunError Outcome} (h : c.Finished s r s')
    (hb : Blocks s.owner? s.controlLog) : Blocks s'.owner? s'.controlLog := by
  cases h with
  | notOpen ht => exact hb
  | notOwned ht ho => exact hb
  | nested ht ho hi =>
    rw [Session.owner?_of_some ht] at hb
    exact hb
  | ended ht ho hi hc => exact blocks_ended ht hc.ending hb

theorem Closed.blocks {r : Except RunError Unit} (h : c.Closed s r s')
    (hb : Blocks s.owner? s.controlLog) : Blocks s'.owner? s'.controlLog := by
  cases h with
  | idle ht => exact hb
  | rolledBack ht hr => exact blocks_ended ht (.rolledBack rfl) hb

end Caller

/-- Every plain action keeps the control statements in blocks. -/
theorem Action.next_blocks (c : Caller σ) {a : Action} (ha : a.plain = true) {s : Session σ}
    (hb : Blocks s.owner? s.controlLog) :
    Blocks (a.next c s).owner? (a.next c s).controlLog := by
  cases a with
  | acquire mode => exact (c.acquire_cases mode s).blocks hb
  | mark => exact (c.setSuccessful_cases s).blocks hb
  | finish => exact (c.finish_cases s).blocks hb
  | send channel sql =>
    obtain ⟨store, ok, hnext⟩ := Action.next_send c s channel sql
    have hsql : Entry.isControl ⟨c.thread, channel, sql, ok⟩ = false := by
      simpa [plain, Entry.isControl] using ha
    rw [hnext, Session.controlLog_sent s store hsql]
    exact hb
  | close => exact (c.close_cases s).blocks hb

theorem Moves.blocks {s s' : Session σ} (h : Moves s s') (hb : Blocks s.owner? s.controlLog) :
    Blocks s'.owner? s'.controlLog := by
  induction h with
  | refl => exact hb
  | tail _ hstep ih =>
    cases hstep with
    | act c a ha => exact Action.next_blocks c ha ih

/-! ### Depth, owner and mark apart -/

/-- Depth, owner and mark, each kept for itself. -/
structure Registers where
  depth : Nat
  owner : Option Thread
  successful : Bool
  deriving DecidableEq

namespace Registers

/-- No transaction is open. -/
def idle : Registers := ⟨0, none, false⟩

/-- An action on the registers of a session whose engine is in the state given. Closing a
level takes one off the depth, and there is no result if nothing is there to be taken. -/
def next (c : Caller σ) (store : σ) (r : Registers) : Action → Option Registers
  | .acquire mode =>
    match r.owner with
    | none =>
      if (c.engine.batch mode.beginStatement store).1.isOk then some ⟨1, some c.thread, false⟩
      else some r
    | some owner => if owner = c.thread then some { r with depth := r.depth + 1 } else some r
  | .mark =>
    if r.owner = some c.thread ∧ r.depth = 1 then some { r with successful := true } else some r
  | .finish =>
    if r.owner = some c.thread then
      match r.depth with
      | 0 => none
      | 1 => some idle
      | depth + 2 => some { r with depth := depth + 1 }
    else some r
  | .send .. => some r
  | .close => if r.depth = 0 then some r else some idle

end Registers

/-- The registers of a session. -/
def Session.registers (s : Session σ) : Registers := ⟨s.depth, s.owner?, s.successful⟩

namespace Session

theorem registers_of_none {s : Session σ} (h : s.transaction = none) :
    s.registers = .idle := by
  simp [registers, depth, owner?, successful, h, Registers.idle]

theorem registers_of_some {s : Session σ} {t : Transaction} (h : s.transaction = some t) :
    s.registers = ⟨t.inner + 1, some t.owner, t.successful⟩ := by
  simp [registers, depth, owner?, successful, h]

end Session

namespace Caller
variable {c : Caller σ} {s s' : Session σ}

theorem Acquired.registers {mode : TransactionMode} {r : Except RunError Bool}
    (h : c.Acquired mode s r s') :
    s.registers.next c s.store (.acquire mode) = some s'.registers := by
  cases h with
  | begun ht hbatch =>
    rw [Session.registers_of_none ht]
    simp only [Registers.next, Registers.idle, hbatch]
    rfl
  | refused ht hbatch =>
    rw [Session.registers_of_none ht, Session.registers_of_none (s := Session.sent ..) ht]
    simp only [Registers.next, Registers.idle, hbatch]
    rfl
  | nested ht ho =>
    rw [Session.registers_of_some ht]
    simp only [Registers.next, if_pos ho]
    rfl
  | busy ht ho =>
    rw [Session.registers_of_some ht]
    simp only [Registers.next, if_neg ho]

theorem Marked.registers {r : Except RunError Unit} (h : c.Marked s r s') :
    s.registers.next c s.store .mark = some s'.registers := by
  cases h with
  | notOpen ht =>
    rw [Session.registers_of_none ht]
    simp [Registers.next, Registers.idle]
  | notOwned ht ho =>
    rw [Session.registers_of_some ht]
    simp [Registers.next, ho]
  | inside ht ho hi =>
    rw [Session.registers_of_some ht]
    simp [Registers.next, hi]
  | marked ht ho hi =>
    rw [Session.registers_of_some ht]
    simp [Registers.next, ho, hi, Session.registers, Session.depth, Session.owner?,
      Session.successful]

theorem Finished.registers {r : Except RunError Outcome} (h : c.Finished s r s') :
    s.registers.next c s.store .finish = some s'.registers := by
  cases h with
  | notOpen ht =>
    rw [Session.registers_of_none ht]
    rfl
  | notOwned ht ho =>
    rw [Session.registers_of_some ht]
    simp [Registers.next, ho]
  | nested ht ho hi =>
    rw [Session.registers_of_some ht]
    simp [Registers.next, ho, hi, Session.registers, Session.depth, Session.owner?,
      Session.successful]
  | ended ht ho hi hc =>
    rw [Session.registers_of_some ht]
    simp only [Registers.next, ho, hi, if_true]
    rfl

theorem Closed.registers {r : Except RunError Unit} (h : c.Closed s r s') :
    s.registers.next c s.store .close = some s'.registers := by
  cases h with
  | idle ht =>
    rw [Session.registers_of_none ht]
    rfl
  | rolledBack ht hr =>
    rw [Session.registers_of_some ht]
    rfl

end Caller

/-- Every action does to the registers of a session what it does to the session. -/
theorem Action.next_registers (c : Caller σ) (a : Action) (s : Session σ) :
    s.registers.next c s.store a = some (a.next c s).registers := by
  cases a with
  | acquire mode => exact (c.acquire_cases mode s).registers
  | mark => exact (c.setSuccessful_cases s).registers
  | finish => exact (c.finish_cases s).registers
  | send channel sql =>
    obtain ⟨store, ok, hnext⟩ := Action.next_send c s channel sql
    rw [hnext]
    rfl
  | close => exact (c.close_cases s).registers

/-! ### Refused calls -/

/-- What calls leave that are refused: the session as it was, but for the entry of a
BEGIN that failed. -/
structure Caller.Refuses (c : Caller σ) (s : Session σ) : Prop where
  /-- A thread that is told to wait has changed nothing. -/
  waits : ∀ {mode s'}, (c.acquire mode).run s = (.ok false, s') → s' = s
  notBegun : ∀ {mode e s'}, (c.begin mode).run s = (.error e, s') →
    s' = s ∨ s.transaction = none ∧ ∃ store,
      c.engine.batch mode.beginStatement s.store = (.error e, store) ∧
        s' = s.sent store ⟨c.thread, .batch, mode.beginStatement, false⟩
  notAcquired : ∀ {mode e s'}, (c.acquire mode).run s = (.error e, s') →
    s.transaction = none ∧ ∃ store,
      c.engine.batch mode.beginStatement s.store = (.error e, store) ∧
        s' = s.sent store ⟨c.thread, .batch, mode.beginStatement, false⟩
  notMarked : ∀ {e s'}, c.setSuccessful.run s = (.error e, s') → s' = s
  /-- A level that is not closed stays; the other errors are the engine's own, from the
  statement that was to close the transaction. -/
  notFinished : ∀ {e s'}, c.finish.run s = (.error e, s') →
    s' = s ∧ (e = .transactionNotOpen ∨ e = .transactionNotOwned) ∨
      ∃ sql ∈ ["COMMIT", "ROLLBACK"], (c.engine.batch sql s.store).1 = .error e

namespace Caller
variable {c : Caller σ} {s s' : Session σ}

theorem Acquired.of_false {mode : TransactionMode} (h : c.Acquired mode s (.ok false) s') :
    s' = s := by
  cases h with
  | busy => rfl

theorem Acquired.of_error {mode : TransactionMode} {e : RunError}
    (h : c.Acquired mode s (.error e) s') :
    s.transaction = none ∧ ∃ store,
      c.engine.batch mode.beginStatement s.store = (.error e, store) ∧
        s' = s.sent store ⟨c.thread, .batch, mode.beginStatement, false⟩ := by
  cases h with
  | refused ht hbatch => exact ⟨ht, _, hbatch, rfl⟩

theorem Marked.of_error {e : RunError} (h : c.Marked s (.error e) s') : s' = s := by
  cases h <;> rfl

theorem Closing.of_error {store store' : σ} {marked : Bool} {e : RunError} {cs : List Entry}
    (h : c.Closing store marked (.error e) store' cs) :
    ∃ sql ∈ ["COMMIT", "ROLLBACK"], (c.engine.batch sql store).1 = .error e := by
  generalize hr : (Except.error e : Except RunError Outcome) = r at h
  cases h with
  | committed => cases hr
  | commitFailed hcommit =>
    cases hr
    exact ⟨"COMMIT", by simp, congrArg Prod.fst hcommit⟩
  | @rolledBack r store' hroll =>
    cases r with
    | ok _ => cases hr
    | error e' =>
      cases hr
      exact ⟨"ROLLBACK", by simp, congrArg Prod.fst hroll⟩

theorem Finished.of_error {e : RunError} (h : c.Finished s (.error e) s') :
    s' = s ∧ (e = .transactionNotOpen ∨ e = .transactionNotOwned) ∨
      ∃ sql ∈ ["COMMIT", "ROLLBACK"], (c.engine.batch sql s.store).1 = .error e := by
  cases h with
  | notOpen => exact .inl ⟨rfl, .inl rfl⟩
  | notOwned => exact .inl ⟨rfl, .inr rfl⟩
  | ended ht ho hi hc => exact .inr hc.of_error

theorem refuses (c : Caller σ) (s : Session σ) : c.Refuses s where
  waits {mode s'} h := by
    have hc := c.acquire_cases mode s
    rw [h] at hc
    exact hc.of_false
  notBegun {mode e s'} h := by
    have hc := c.acquire_cases mode s
    rw [run_begin] at h
    cases hr : (c.acquire mode).run s with
    | mk r s₁ =>
      rw [hr] at h hc
      cases r with
      | error e' =>
        cases h
        exact .inr hc.of_error
      | ok acquired =>
        cases acquired with
        | false =>
          cases h
          exact .inl hc.of_false
        | true => cases h
  notAcquired {mode e s'} h := by
    have hc := c.acquire_cases mode s
    rw [h] at hc
    exact hc.of_error
  notMarked {e s'} h := by
    have hc := c.setSuccessful_cases s
    rw [h] at hc
    exact hc.of_error
  notFinished {e s'} h := by
    have hc := c.finish_cases s
    rw [h] at hc
    exact hc.of_error

end Caller

/-! ### Every session that can be reached -/

/-- However many threads use a session, and however its engine answers: its state fits the
control statements sent, the depth is never taken below zero, refused calls leave it
alone, and all that schedules of plain turns lead to is such a session. -/
theorem reachable_inStep (store : σ) :
    (∀ s, Reachable store s → s.InStep ∧ ∀ c : Caller σ, c.Refuses s ∧
      ∀ a : Action, s.registers.next c s.store a = some (a.next c s).registers) ∧
    ∀ ts : List (Caller σ × Turn), (∀ t ∈ ts, t.2.plain = true) →
      Reachable store ((Schedule.start store).turns ts).session := by
  refine ⟨fun s hs => ⟨?_, fun c => ⟨c.refuses s, fun a => a.next_registers c s⟩⟩, fun ts hts => ?_⟩
  · exact Session.inStep_of_blocks (Moves.blocks hs .nil)
  · exact Schedule.moves_turns ts hts (.start store)

/-- A thread whose commit the engine refuses, while another waits to begin. -/
def contention : List (Caller (List Rule) × Turn) :=
  let one : Caller (List Rule) := ⟨Script.engine, .immediate, "one"⟩
  let two : Caller (List Rule) := ⟨Script.engine, .immediate, "two"⟩
  [(one, .call (.begin none)), (two, .beginWaiting (some .deferred)),
    (one, .call (.execute "INSERT INTO t VALUES (1)")), (two, .call (.execute "DELETE FROM t")),
    (one, .call .setSuccessful), (one, .call .finish)]

/-- The rules of that engine. -/
def refusedCommit : List Rule :=
  [{ Rule.fallback with sql := some "COMMIT", failure := some (.database "disk full") }]

theorem reachable_inStep_contention :
    (∀ t ∈ contention, t.2.plain = true) ∧
      let s := ((Schedule.start refusedCommit).turns contention).session
      Reachable refusedCommit s ∧ s.InStep ∧ s.owner? = some "two" ∧
        s.controlLog.map (fun e => (e.thread, e.sql, e.succeeded)) =
          [("one", "BEGIN IMMEDIATE", true), ("one", "COMMIT", false), ("one", "ROLLBACK", true),
            ("two", "BEGIN DEFERRED", true)] := by
  have hplain : ∀ t ∈ contention, t.2.plain = true := by decide
  have hreach := (reachable_inStep refusedCommit).2 contention hplain
  refine ⟨hplain, hreach, ((reachable_inStep refusedCommit).1 _ hreach).1, ?_, ?_⟩
  · decide +kernel
  · decide +kernel

end SqlMaps
