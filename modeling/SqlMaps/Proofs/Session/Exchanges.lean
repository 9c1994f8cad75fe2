import SqlMaps.Proofs.Session.Log
import SqlMaps.Proofs.Sql.StatementReading

/-! What a session has sent, and what it was answered.

The log of a session keeps the statements and not the answers. An engine answers by its state
alone, so a log that is sent once more, to the state that it began in, is answered as it was
(`Engine.replay`). `Heard` says what a session has sent and heard from one moment to another;
what it has heard is told by the two moments (`Heard.eq_exchanges`), and goes on from one stretch
to the next (`Heard.trans`). Whatever a caller does, it `Talks`: the state of the database is
changed by statements in the log and by nothing else. -/
namespace SqlMaps
open Attempt
variable {σ α : Type}

/-- What an engine answered. -/
inductive Answer where
  | failed (error : RunError)
  | done
  | changed (count : Nat)
  | rows (rows : RowSet)
  deriving DecidableEq

/-- The answer that a result is. -/
def Answer.ofResult (answer : α → Answer) : Except RunError α → Answer
  | .ok a => answer a
  | .error e => .failed e

theorem Answer.ofResult_injective {answer : α → Answer} (hanswer : Function.Injective answer)
    (hfailed : ∀ a e, answer a ≠ .failed e) : Function.Injective (ofResult answer) := by
  intro r r' h
  cases r with
  | ok a =>
    cases r' with
    | ok b => exact congrArg Except.ok (hanswer h)
    | error e => exact absurd h (hfailed a e)
  | error e =>
    cases r' with
    | ok b => exact absurd h.symm (hfailed b e)
    | error e' => exact congrArg Except.error (Answer.failed.inj h)

/-- A statement and the answer to it. -/
structure Exchange where
  channel : Channel
  sql : String
  answer : Answer
  deriving DecidableEq

/-! ### Sending a log again -/

namespace Engine

/-- The answer to a statement, and the state behind it. -/
def answer (e : Engine σ) (s : σ) (sql : String) : Channel → Answer × σ
  | .batch => (e.batch sql s).map (Answer.ofResult fun _ => .done) id
  | .execute => (e.execute sql s).map (Answer.ofResult .changed) id
  | .query => (e.query sql s).map (Answer.ofResult .rows) id

/-- The answers to the entries of a log, from a state on, and the state behind them. -/
def replay (e : Engine σ) (s : σ) : List Entry → List Exchange × σ
  | [] => ([], s)
  | entry :: rest =>
    let (answer, s') := e.answer s entry.sql entry.channel
    let (answers, last) := e.replay s' rest
    (⟨entry.channel, entry.sql, answer⟩ :: answers, last)

theorem replay_append (e : Engine σ) (s : σ) (es fs : List Entry) :
    e.replay s (es ++ fs) =
      ((e.replay s es).1 ++ (e.replay (e.replay s es).2 fs).1,
        (e.replay (e.replay s es).2 fs).2) := by
  induction es generalizing s with
  | nil => rfl
  | cons entry rest ih => simp only [List.cons_append, replay, ih]

/-- The statements that are answered are those of the log. -/
theorem map_sql_replay (e : Engine σ) (s : σ) (es : List Entry) :
    (e.replay s es).1.map Exchange.sql = es.map Entry.sql := by
  induction es generalizing s with
  | nil => rfl
  | cons entry rest ih => simp only [replay, List.map_cons, ih]

end Engine

namespace Caller

/-- From one moment of a session to another, these are the statements sent, with the answers. -/
def Heard (c : Caller σ) (s : Session σ) (xs : List Exchange) (t : Session σ) : Prop :=
  ∃ es, t.log = s.log ++ es ∧ c.engine.replay s.store es = (xs, t.store)

/-- What a session has sent and heard from one moment to another. -/
def exchanges (c : Caller σ) (s t : Session σ) : List Exchange :=
  (c.engine.replay s.store (t.log.drop s.log.length)).1

variable {c : Caller σ} {s t u : Session σ} {xs ys : List Exchange}

theorem Heard.eq_exchanges (h : c.Heard s xs t) : c.exchanges s t = xs := by
  obtain ⟨es, hlog, hreplay⟩ := h
  rw [exchanges, hlog, List.drop_left, hreplay]

theorem Heard.unique (h : c.Heard s xs t) (h' : c.Heard s ys t) : xs = ys :=
  h.eq_exchanges.symm.trans h'.eq_exchanges

theorem heard_nil (hlog : t.log = s.log) (hstore : t.store = s.store) : c.Heard s [] t :=
  ⟨[], by rw [hlog, List.append_nil], by rw [hstore]; rfl⟩

theorem Heard.eq_nil (h : c.Heard s xs s) : xs = [] :=
  h.unique (heard_nil rfl rfl)

theorem Heard.trans (h : c.Heard s xs t) (h' : c.Heard t ys u) : c.Heard s (xs ++ ys) u := by
  obtain ⟨es, hlog, hreplay⟩ := h
  obtain ⟨fs, hlog', hreplay'⟩ := h'
  refine ⟨es ++ fs, by rw [hlog', hlog, List.append_assoc], ?_⟩
  rw [Engine.replay_append, hreplay, hreplay']

/-- What holds of the statements in the log holds of the statements that were answered. -/
theorem Heard.forall_sql {p : String → Prop} (h : c.Heard s xs t)
    (hlogs : Logs (fun e => p e.sql) s t) : ∀ x ∈ xs, p x.sql := by
  obtain ⟨es, hlog, hreplay⟩ := h
  obtain ⟨fs, hlog', hfs⟩ := hlogs
  obtain rfl : es = fs := List.append_cancel_left (hlog.symm.trans hlog')
  have hsql : xs.map Exchange.sql = es.map Entry.sql := by
    rw [← c.engine.map_sql_replay s.store es, hreplay]
  intro x hx
  obtain ⟨e, he, heq⟩ := List.mem_map.1 (hsql ▸ List.mem_map_of_mem hx)
  exact heq ▸ hfs e he

/-! ### Calls talk to the engine -/

/-- A session that has come along by sending statements and hearing the answers. -/
def Talks (c : Caller σ) (s t : Session σ) : Prop :=
  ∃ xs, c.Heard s xs t

instance (c : Caller σ) : Course c.Talks where
  refl _ := ⟨[], heard_nil rfl rfl⟩
  trans := fun ⟨xs, h⟩ ⟨ys, h'⟩ => ⟨xs ++ ys, h.trans h'⟩

variable (c)

theorem heard_batch (sql : String) (s : Session σ) :
    c.Heard s [⟨.batch, sql, .ofResult (fun _ => .done) ((c.batch sql).run s).1⟩]
      ((c.batch sql).run s).2 :=
  ⟨[_], rfl, rfl⟩

theorem heard_change (sql : String) (s : Session σ) :
    c.Heard s [⟨.execute, sql, .ofResult .changed ((c.change sql).run s).1⟩]
      ((c.change sql).run s).2 :=
  ⟨[_], rfl, rfl⟩

theorem heard_query (sql : String) (s : Session σ) :
    c.Heard s [⟨.query, sql, .ofResult .rows ((c.query sql).run s).1⟩]
      ((c.query sql).run s).2 :=
  ⟨[_], rfl, rfl⟩

theorem talks_batch (sql : String) : Follows c.Talks (c.batch sql) :=
  fun s => ⟨_, c.heard_batch sql s⟩

theorem talks_query (sql : String) : Follows c.Talks (c.query sql) :=
  fun s => ⟨_, c.heard_query sql s⟩

theorem talks_setTransaction (t : Option Transaction) :
    Follows c.Talks (setTransaction t : SessionM σ Unit) :=
  fun _ => ⟨[], heard_nil rfl rfl⟩

theorem talks_owned : Follows c.Talks c.owned := by
  refine follows_of_unchanged fun s => ?_
  rw [run_owned]
  cases s.transaction with
  | none => rfl
  | some t => by_cases ho : t.owner = c.thread <;> simp [ho]

theorem talks_begin (mode : TransactionMode) : Follows c.Talks (c.begin mode) := by
  have hacquire : Follows c.Talks (c.acquire mode) := by
    refine follows_bind follows_get fun s => ?_
    cases s.transaction with
    | none =>
      refine follows_bind (c.talks_batch _) fun _ => ?_
      exact follows_bind (c.talks_setTransaction _) fun _ => follows_pure _
    | some t =>
      dsimp only
      split
      · exact follows_bind (c.talks_setTransaction _) fun _ => follows_pure _
      · exact follows_pure _
  refine follows_bind hacquire fun acquired => ?_
  cases acquired with
  | false => exact follows_throw _
  | true => exact follows_pure _

theorem talks_setSuccessful : Follows c.Talks c.setSuccessful := by
  refine follows_bind c.talks_owned fun t => ?_
  split
  · exact c.talks_setTransaction _
  · exact follows_pure _

theorem talks_finish : Follows c.Talks c.finish := by
  have hcommit : Follows c.Talks c.commit := by
    refine follows_bind (follows_settle (c.talks_batch _)) fun result => ?_
    cases result with
    | ok _ => exact follows_pure _
    | error e =>
      exact follows_bind (follows_settle (c.talks_batch _)) fun _ => follows_throw e
  refine follows_bind c.talks_owned fun t => ?_
  cases t.inner with
  | succ inner => exact follows_bind (c.talks_setTransaction _) fun _ => follows_pure _
  | zero =>
    refine follows_bind (c.talks_setTransaction _) fun _ => ?_
    split
    · exact hcommit
    · exact follows_bind (c.talks_batch _) fun _ => follows_pure _

theorem talks_snapshotTables : Follows c.Talks c.snapshotTables :=
  c.follows_snapshotTables (c.talks_query _) (fun _ => c.talks_query _) fun _ => c.talks_query _

/-! ### Statements that copy nothing -/

end Caller

/-- A statement that is not of those sent to copy rows. -/
def Sql.Aside (sql : String) : Prop :=
  ∀ words ∈ copyingStarts, opensWith words sql = false

theorem Sql.Command.aside_text {command : Command} (h : command.opening ∉ copyingStarts) :
    Aside command.text := by
  intro words hwords
  rw [opensWith_text hwords]
  exact decide_eq_false fun heq => h (heq ▸ hwords)

theorem Entry.Brackets.aside {e : Entry} (h : e.Brackets) : Sql.Aside e.sql := by
  have hall : ∀ text ∈ controlTexts, ∀ words ∈ Sql.copyingStarts,
      Sql.opensWith words text = false := by decide +kernel
  exact hall e.sql (by simpa [Entry.isControl, controls] using h.control)

namespace Caller
variable (c : Caller σ)

theorem logs_aside {command : Sql.Command} (h : command.opening ∉ Sql.copyingStarts) :
    Follows (Logs fun e => Sql.Aside e.sql) (c.query command.text) :=
  c.logs_query fun _ _ hsql => hsql ▸ Sql.Command.aside_text h

theorem logs_aside_snapshotTables :
    Follows (Logs fun e => Sql.Aside e.sql) c.snapshotTables :=
  c.follows_snapshotTables (c.logs_aside (by decide))
    (fun _ => c.logs_aside (show "SELECT * FROM " ∉ Sql.copyingStarts by decide))
    fun _ => c.logs_aside (show "SELECT COUNT(ROWID) FROM " ∉ Sql.copyingStarts by decide)

end Caller

end SqlMaps
