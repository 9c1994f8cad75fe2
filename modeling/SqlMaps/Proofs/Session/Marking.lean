import SqlMaps.Proofs.Session.History
import SqlMaps.Proofs.Session.Sending

/-! What a transaction sends behind its body.

A transaction marks itself behind a body that succeeds. The body is on the level of the
transaction, where a mark counts, so it can make the mark itself and fail after that: the error
comes back, and COMMIT has been sent (`transaction_commits_of_ownMark`).
`transaction_commits_iff` says that there is no other way for a body that fails. What the body has
done is a history; as long as that never closes the level it was begun on, the statements sent
between BEGIN and the closing ones are the body's own (`log_after_of_staysOpen`). -/
namespace SqlMaps
open Attempt
variable {σ α : Type}

/-! ### Statements of a history -/

/-- What is sent of an entry, and by whom. -/
def Entry.sending (e : Entry) : Thread × Channel × String :=
  (e.thread, e.channel, e.sql)

/-- The statement of an action, and whose it is. -/
def Action.sending? (c : Caller σ) : Action → Option (Thread × Channel × String)
  | .send channel sql => some (c.thread, channel, sql)
  | _ => none

/-- The statements that a history sends as such, in order. -/
def History.sendings (history : History σ) : List (Thread × Channel × String) :=
  history.filterMap fun deed => deed.2.sending? deed.1

namespace Session

theorem inTransaction_of_owner? {s : Session σ} {thread : Thread} (h : s.owner? = some thread) :
    s.inTransaction = true := by
  simpa [owner?, inTransaction] using congrArg Option.isSome h

/-- A transaction is open all through a history, and behind it. -/
def StaysOpen (s : Session σ) (history : History σ) : Prop :=
  ∀ first, first <+: history → (s.after first).inTransaction = true

theorem StaysOpen.of_append {s : Session σ} {first rest : History σ}
    (h : s.StaysOpen (first ++ rest)) : s.StaysOpen first :=
  fun _ hfirst => h _ (hfirst.trans (List.prefix_append ..))

end Session

namespace Caller
variable {c : Caller σ} {s s' : Session σ}

/-- Beginning a further level sends nothing. -/
theorem Acquired.log_eq {mode : TransactionMode} {r : Except RunError Bool}
    (h : c.Acquired mode s r s') (hopen : s.inTransaction = true) : s'.log = s.log := by
  cases h with
  | begun ht => simp [Session.inTransaction, ht] at hopen
  | refused ht => simp [Session.inTransaction, ht] at hopen
  | nested => rfl
  | busy => rfl

/-- Marking sends nothing. -/
theorem Marked.log_eq {r : Except RunError Unit} (h : c.Marked s r s') : s'.log = s.log := by
  cases h <;> rfl

end Caller

namespace Action
variable {s : Session σ}

/-- An action between open sessions sends its statement, if it has one, and nothing else. -/
theorem log_next_of_open (c : Caller σ) (a : Action) (h : s.inTransaction = true)
    (hnext : (a.next c s).inTransaction = true) :
    ∃ es, (a.next c s).log = s.log ++ es ∧ es.map Entry.sending = (a.sending? c).toList := by
  have hsame : (a.next c s).log = s.log → a.sending? c = none →
      ∃ es, (a.next c s).log = s.log ++ es ∧ es.map Entry.sending = (a.sending? c).toList :=
    fun hlog hnone => ⟨[], by simpa using hlog, by simp [hnone]⟩
  cases a with
  | acquire mode => exact hsame ((c.acquire_cases mode s).log_eq h) rfl
  | mark => exact hsame (c.setSuccessful_cases s).log_eq rfl
  | finish =>
    obtain ⟨-, -, hlog⟩ | ⟨-, hclosed, -⟩ := (c.finish_cases s).sends h
    · exact hsame hlog rfl
    · exact absurd (hclosed.symm.trans hnext) nofun
  | send channel sql =>
    obtain ⟨store, ok, hsent⟩ := next_send c s channel sql
    exact ⟨[⟨c.thread, channel, sql, ok⟩], by rw [hsent]; rfl, rfl⟩
  | close => exact absurd (((c.close_cases s).sends h).1.symm.trans hnext) nofun

end Action

/-- While a session stays open, what is sent is what the history sends as such. -/
theorem log_after_of_staysOpen {s : Session σ} {history : History σ} (h : s.StaysOpen history) :
    ∃ es, (s.after history).log = s.log ++ es ∧ es.map Entry.sending = history.sendings := by
  induction history using List.reverseRecOn with
  | nil => exact ⟨[], by simp, rfl⟩
  | append_singleton history deed ih =>
    obtain ⟨es, hlog, hes⟩ := ih h.of_append
    obtain ⟨es', hlog', hes'⟩ := Action.log_next_of_open deed.1 deed.2
      (h history (List.prefix_append ..)) (by simpa using h _ (List.prefix_refl _))
    refine ⟨es ++ es', ?_, ?_⟩
    · simpa [hlog] using hlog'
    · rw [List.map_append, hes, hes', History.sendings, History.sendings, List.filterMap_append]
      cases hsending : deed.2.sending? deed.1 <;> simp [hsending]

/-! ### Behind the body -/

namespace Block
variable {s : Session σ} {history : History σ}

/-- Behind a history the transaction is that of the thread of its block, and it is marked exactly
if that thread has marked the block. -/
theorem registers_behind (b : Block s history) :
    ∃ inner marked, (s.after history).registers = ⟨inner + 1, some b.opener.thread, marked⟩ ∧
      (marked = true ↔ b.Marked) := by
  rw [b.after_eq]
  exact registers_after b.registers_begun b.during fun first => b.inTransaction_after

/-- No block begins inside a history that keeps the session open. -/
theorem before_eq_nil {deed : Caller σ × Action} (b : Block s (deed :: history))
    (h : (deed.2.next deed.1 s).StaysOpen history) : b.before = [] := by
  cases hbefore : b.before with
  | nil => rfl
  | cons first rest =>
    have hsplit := b.split
    rw [hbefore, List.cons_append] at hsplit
    obtain ⟨rfl, hrest⟩ := List.cons.inj hsplit
    have hidle := b.idle
    rw [hbefore, Session.after_cons, h rest ⟨_, hrest⟩] at hidle
    cases hidle

end Block

/-- Without a COMMIT a transaction is closed by a ROLLBACK alone. -/
theorem Ending.eq_rollback {cs : List Entry} (h : Ending cs)
    (hnone : "COMMIT" ∉ cs.map Entry.sql) : cs.map Entry.sql = ["ROLLBACK"] := by
  cases h with
  | committed hsql => simp [hsql] at hnone
  | commitFailed hsql => simp [hsql] at hnone
  | rolledBack hsql => simp [hsql]

namespace Caller
variable {c : Caller σ} {s : Session σ}

/-- The thread whose level is the outermost ends the transaction by closing it. -/
theorem log_finish (howner : s.owner? = some c.thread) (hdepth : s.depth = 1) :
    (Action.finish.next c s).inTransaction = false ∧
      ∃ cs, (Action.finish.next c s).log = s.log ++ cs ∧ Ending cs ∧
        ("COMMIT" ∈ cs.map Entry.sql ↔ s.successful = true) ∧
        (s.successful = false → cs.map Entry.sql = ["ROLLBACK"]) := by
  have hopen := Session.inTransaction_of_owner? howner
  obtain ⟨hnot, -⟩ | ⟨-, hclosed, cs, hlog, hending, hcommit⟩ := (c.finish_cases s).sends hopen
  · exact absurd ⟨howner, hdepth⟩ hnot
  · exact ⟨hclosed, cs, hlog, hending, hcommit, fun hunmarked =>
      hending.eq_rollback (by simp [hcommit, hunmarked])⟩

/-- The mark behind a body that succeeds counts on the outermost level. -/
theorem registers_mark (howner : s.owner? = some c.thread) (hdepth : s.depth = 1) :
    (Action.mark.next c s).registers = ⟨1, some c.thread, true⟩ := by
  have hnext := Action.mark.next_registers c s
  simpa [Registers.next, Session.registers, howner, hdepth] using hnext.symm

/-- A transaction that is closed behind its body is committed if the body has succeeded, or if it
has been marked before. -/
theorem log_closing (howner : s.owner? = some c.thread) (hdepth : s.depth = 1) (ok : Bool) :
    let closed := s.after ((if ok then [(c, .mark)] else []) ++ [(c, .finish)])
    closed.inTransaction = false ∧
      ∃ cs, closed.log = s.log ++ cs ∧ Ending cs ∧
        ("COMMIT" ∈ cs.map Entry.sql ↔ ok = true ∨ s.successful = true) ∧
        (¬ (ok = true ∨ s.successful = true) → cs.map Entry.sql = ["ROLLBACK"]) := by
  cases ok with
  | false =>
    obtain ⟨hclosed, cs, hlog, hending, hcommit, hrollback⟩ := c.log_finish howner hdepth
    exact ⟨hclosed, cs, hlog, hending, by simpa using hcommit, by simpa using hrollback⟩
  | true =>
    have hregisters := c.registers_mark howner hdepth
    obtain ⟨hclosed, cs, hlog, hending, hcommit, -⟩ := c.log_finish
      (congrArg Registers.owner hregisters) (congrArg Registers.depth hregisters)
    have hmarkLog : (Action.mark.next c s).log = s.log := (c.setSuccessful_cases s).log_eq
    have hmarked : (Action.mark.next c s).successful = true :=
      congrArg Registers.successful hregisters
    exact ⟨hclosed, cs, hmarkLog ▸ hlog, hending, by simpa [hcommit] using hmarked, by simp⟩

/-- The error of a body is the error of its transaction. -/
theorem result_transaction_of_error {mode : TransactionMode} {body : SessionM σ α}
    {s' : Session σ} {e : RunError} (hbegin : (c.begin mode).run s = (.ok (), s'))
    (hbody : (body.run s').1 = .error e) : ((c.transaction mode body).run s).1 = .error e := by
  cases hrun : body.run s' with
  | mk r left =>
    rw [hrun] at hbody
    cases hbody
    have hinside : (do let a ← body; c.setSuccessful; return a : SessionM σ α).run s' =
        (.error e, left) := by rw [run_bind, hrun]
    cases hfinish : c.finish.run left with
    | mk o closed =>
      rw [transaction, run_bracket_of_ok hbegin hinside hfinish]
      rfl

/-- Behind a body that is left on the outermost level of its thread, COMMIT is sent exactly if the
body has succeeded or its own thread has marked the block that it has left open, on that level;
otherwise a ROLLBACK alone. The error of a body comes back. If the body never closes the level of
the transaction, then that block is the transaction itself, and apart from BEGIN and what closes it
the statements sent are the body's. -/
theorem transaction_commits_iff (c : Caller σ) (mode : TransactionMode) (body : SessionM σ α)
    {s : Session σ} (hidle : s.inTransaction = false) :
    let whole := (c.transaction mode body).run s
    (∃ e store, c.engine.batch mode.beginStatement s.store = (.error e, store) ∧
      whole = (.error e, s.sent store ⟨c.thread, .batch, mode.beginStatement, false⟩)) ∨
    ∃ store, c.engine.batch mode.beginStatement s.store = (.ok (), store) ∧
      let begun := c.begun mode s store
      let result := (body.run begun).1
      ∀ deeds : History σ, (body.run begun).2 = begun.after deeds →
        (begun.after deeds).owner? = some c.thread → (begun.after deeds).depth = 1 →
        (∀ e, result = .error e → whole.1 = .error e) ∧ whole.2.inTransaction = false ∧
        ∃ (b : Block s ((c, .acquire mode) :: deeds)) (cs : List Entry),
          whole.2.log = (begun.after deeds).log ++ cs ∧ Ending cs ∧
          ("COMMIT" ∈ cs.map Entry.sql ↔ result.isOk = true ∨ b.Marked) ∧
          (¬ (result.isOk = true ∨ b.Marked) → cs.map Entry.sql = ["ROLLBACK"]) ∧
          (begun.StaysOpen deeds → b.before = [] ∧ ∃ es,
            (begun.after deeds).log =
              s.log ++ ⟨c.thread, .batch, mode.beginStatement, true⟩ :: es ∧
            es.map Entry.sending = deeds.sendings) := by
  intro whole
  have hnone : s.transaction = none := by simpa [Session.inTransaction] using hidle
  obtain ⟨e, store, hbatch, hbegin⟩ | ⟨store, hbatch, hbegin⟩ := c.run_begin_of_idle mode hnone
  · exact .inl ⟨e, store, hbatch, by rw [← run_bracket_of_error hbegin]; rfl⟩
  refine .inr ⟨store, hbatch, ?_⟩
  intro begun result deeds hbody howner hdepth
  have hbegun : (Action.acquire mode).next c s = begun := by
    rw [← c.state_begin mode s, hbegin]
  have hstate : whole.2 = (begun.after deeds).after
      ((if result.isOk then [(c, .mark)] else []) ++ [(c, .finish)]) := by
    have hhistory := c.state_transaction (congrArg Prod.fst hbegin) (hbegun ▸ hbody)
    rwa [List.append_assoc, List.cons_append, Session.after_cons, Session.after_append,
      hbegun] at hhistory
  have hopen : (s.after ((c, .acquire mode) :: deeds)).inTransaction = true := by
    rw [Session.after_cons, hbegun]
    exact Session.inTransaction_of_owner? howner
  obtain ⟨b⟩ := exists_block (Session.registers_of_idle hidle) _ hopen
  have hmarked : (begun.after deeds).successful = true ↔ b.Marked := by
    obtain ⟨inner, marked, hregisters, hmark⟩ := b.registers_behind
    rw [Session.after_cons, hbegun] at hregisters
    rw [← hmark, show (begun.after deeds).successful = marked from
      congrArg Registers.successful hregisters]
  obtain ⟨hclosed, cs, hlog, hending, hcommit, hrollback⟩ :=
    c.log_closing howner hdepth result.isOk
  rw [← hstate] at hclosed hlog
  rw [hmarked] at hcommit hrollback
  refine ⟨fun e he => c.result_transaction_of_error hbegin he, hclosed, b, cs, hlog, hending,
    hcommit, hrollback, fun hstays => ?_⟩
  obtain ⟨es, hes, hsendings⟩ := log_after_of_staysOpen hstays
  refine ⟨b.before_eq_nil (hbegun ▸ hstays), es, ?_, hsendings⟩
  rw [hes]
  exact List.append_assoc ..

/-- A body that writes, with a mark on a level of its own inside, and fails. -/
def markingInside (c : Caller σ) : SessionM σ Unit := do
  c.begin .immediate
  discard (c.change "INSERT INTO t VALUES (1)")
  c.setSuccessful
  discard c.finish
  throw (.database "disk full")

/-- A mark on an inner level is none of the transaction: the body's failure rolls it back. -/
theorem transaction_commits_iff_markingInside :
    let c : Caller (List Rule) := ⟨Script.engine, .immediate, "main"⟩
    let s : Session (List Rule) := .start []
    let deeds : History (List Rule) :=
      [(c, .acquire .immediate), (c, .send .execute "INSERT INTO t VALUES (1)"), (c, .mark),
        (c, .finish)]
    s.inTransaction = false ∧
      ∃ b : Block s ((c, .acquire .immediate) :: deeds), ¬ b.Marked ∧
        ((c.transaction .immediate c.markingInside).run s).1 = .error (.database "disk full") ∧
        ((c.transaction .immediate c.markingInside).run s).2.log.map Entry.sql =
          ["BEGIN IMMEDIATE", "INSERT INTO t VALUES (1)", "ROLLBACK"] := by
  intro c s deeds
  refine ⟨rfl, ?_⟩
  obtain ⟨e, store, hbatch, -⟩ | ⟨store, hbatch, hends⟩ :=
    c.transaction_commits_iff .immediate c.markingInside (s := s) rfl
  · cases hbatch
  · obtain rfl : [] = store := congrArg Prod.snd hbatch
    obtain ⟨herror, -, b, cs, hlog, -, hcommit, -, -⟩ := hends deeds rfl rfl rfl
    have hcs := congrArg (List.drop ((c.begun .immediate s []).after deeds).log.length) hlog
    rw [List.drop_left] at hcs
    have hnone : "COMMIT" ∉ cs.map Entry.sql := hcs ▸ by decide +kernel
    refine ⟨b, fun hmarked => hnone (hcommit.2 (.inr hmarked)), herror _ rfl, ?_⟩
    decide +kernel

/-- A body that writes, marks the transaction it stands in, and fails. -/
def markingOutside (c : Caller σ) : SessionM σ Unit := do
  discard (c.execute "INSERT INTO t VALUES (1)")
  c.setSuccessful
  throw (.database "disk full")

/-- The transaction of a body that has marked it is committed, though the body fails. -/
theorem transaction_commits_of_ownMark :
    let c : Caller (List Rule) := ⟨Script.engine, .immediate, "main"⟩
    let s : Session (List Rule) := .start []
    let begun := c.begun .immediate s []
    let whole := (c.transaction .immediate c.markingOutside).run s
    s.inTransaction = false ∧ (c.begin .immediate).run s = (.ok (), begun) ∧
      (c.markingOutside.run begun).1 = .error (.database "disk full") ∧
      (c.markingOutside.run begun).2.depth = begun.depth ∧
      whole.1 = .error (.database "disk full") ∧
      whole.2.log.map (fun entry => (entry.sql, entry.succeeded)) =
        [("BEGIN IMMEDIATE", true), ("INSERT INTO t VALUES (1)", true), ("COMMIT", true)] := by
  intro c s begun whole
  exact ⟨rfl, rfl, by decide +kernel⟩

end Caller

end SqlMaps
