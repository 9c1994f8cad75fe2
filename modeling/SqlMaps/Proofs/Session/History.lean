import Mathlib.Data.List.Induction
import SqlMaps.Proofs.Session.Blocks

/-! What decides whether a transaction is committed.

A history is what threads did to a session, one action after another, with their calls cut
into each other in any way. Where a transaction is open behind a history, a `Block` is the
part of it since the action that began. The mark of the transaction comes from that part
alone, and there only from the thread that began, while the outermost level was the only one
(`registers_after`). `finish_commits_iff_marked` puts that to what is sent in the end. -/
namespace SqlMaps
open Attempt
variable {σ α : Type}

/-- What threads did, in order. -/
abbrev History (σ : Type) := List (Caller σ × Action)

namespace Session

/-- The session after a history. -/
def after (s : Session σ) (history : History σ) : Session σ :=
  history.foldl (fun s deed => deed.2.next deed.1 s) s

@[simp] theorem after_nil (s : Session σ) : s.after [] = s := rfl

@[simp] theorem after_cons (s : Session σ) (deed : Caller σ × Action) (rest : History σ) :
    s.after (deed :: rest) = (deed.2.next deed.1 s).after rest := rfl

@[simp] theorem after_append (s : Session σ) (first rest : History σ) :
    s.after (first ++ rest) = (s.after first).after rest :=
  List.foldl_append

theorem registers_of_idle {s : Session σ} (h : s.inTransaction = false) : s.registers = .idle :=
  registers_of_none (by simpa [inTransaction] using h)

theorem registers_of_open {s : Session σ} (h : s.inTransaction = true) :
    ∃ inner thread marked, s.registers = ⟨inner + 1, some thread, marked⟩ := by
  obtain ⟨t, ht⟩ := Option.isSome_iff_exists.1 h
  exact ⟨t.inner, t.owner, t.successful, registers_of_some ht⟩

theorem not_inTransaction_of_idle {s : Session σ} (h : s.registers = .idle) :
    ¬ s.inTransaction = true := by
  intro hopen
  obtain ⟨inner, thread, marked, hs⟩ := registers_of_open hopen
  rw [h] at hs
  cases hs

end Session

/-! ### One action -/

namespace Action
variable {s : Session σ}

/-- From an idle session only beginning leads to an open one, which is not marked. -/
theorem next_idle (c : Caller σ) (a : Action) (h : s.registers = .idle) :
    (a.next c s).registers = .idle ∨
      ∃ mode, a = .acquire mode ∧ (a.next c s).registers = ⟨1, some c.thread, false⟩ := by
  have hnext := a.next_registers c s
  rw [h] at hnext
  cases a with
  | acquire mode =>
    simp only [Registers.next, Registers.idle] at hnext
    split at hnext
    · exact .inr ⟨mode, rfl, (Option.some.inj hnext).symm⟩
    · exact .inl (Option.some.inj hnext).symm
  | mark =>
    simp only [Registers.next, Registers.idle] at hnext
    exact .inl (by simpa [Registers.idle] using hnext.symm)
  | finish => exact .inl (Option.some.inj hnext).symm
  | send => exact .inl (Option.some.inj hnext).symm
  | close => exact .inl (Option.some.inj hnext).symm

/-- An open transaction ends or stays with its owner, and it is marked by its owner alone,
while the outermost level is the only one. -/
theorem next_open (c : Caller σ) (a : Action) {inner : Nat} {thread : Thread} {marked : Bool}
    (h : s.registers = ⟨inner + 1, some thread, marked⟩) :
    (a.next c s).registers = .idle ∨
      ∃ inner' marked', (a.next c s).registers = ⟨inner' + 1, some thread, marked'⟩ ∧
        (marked' = true ↔ marked = true ∨ a = .mark ∧ c.thread = thread ∧ s.depth = 1) := by
  have hdepth : s.depth = inner + 1 := congrArg Registers.depth h
  have hnext := a.next_registers c s
  rw [h] at hnext
  cases a with
  | acquire mode =>
    simp only [Registers.next] at hnext
    split at hnext
    · exact .inr ⟨inner + 1, marked, (Option.some.inj hnext).symm, by simp⟩
    · exact .inr ⟨inner, marked, (Option.some.inj hnext).symm, by simp⟩
  | mark =>
    simp only [Registers.next, Option.some.injEq, Nat.add_eq_right] at hnext
    split at hnext
    · rename_i hmark
      exact .inr ⟨inner, true, (Option.some.inj hnext).symm, by simp [hmark.1, hdepth, hmark.2]⟩
    · rename_i hmark
      refine .inr ⟨inner, marked, (Option.some.inj hnext).symm, ?_⟩
      have : ¬ (c.thread = thread ∧ s.depth = 1) := by
        rintro ⟨rfl, hone⟩
        exact hmark ⟨rfl, by omega⟩
      simp [this]
  | finish =>
    simp only [Registers.next] at hnext
    split at hnext
    · cases inner with
      | zero => exact .inl (Option.some.inj hnext).symm
      | succ inner => exact .inr ⟨inner, marked, (Option.some.inj hnext).symm, by simp⟩
    · exact .inr ⟨inner, marked, (Option.some.inj hnext).symm, by simp⟩
  | send => exact .inr ⟨inner, marked, (Option.some.inj hnext).symm, by simp⟩
  | close => exact .inl (Option.some.inj hnext).symm

end Action

/-! ### Blocks of a history -/

/-- The block that is open behind a history: an action found the session idle and began, and
the session has been open since. -/
structure Block (s : Session σ) (history : History σ) where
  before : History σ
  opener : Caller σ
  mode : TransactionMode
  during : History σ
  split : before ++ (opener, .acquire mode) :: during = history
  idle : (s.after before).inTransaction = false
  stays : ∀ first, first <+: during →
    (s.after (before ++ (opener, .acquire mode) :: first)).inTransaction = true

namespace Block
variable {s : Session σ} {history : History σ}

/-- The session as the block begins. -/
def begun (b : Block s history) : Session σ :=
  (Action.acquire b.mode).next b.opener (s.after b.before)

/-- The thread of the block has marked it while the outermost level was the only one. -/
def Marked (b : Block s history) : Prop :=
  ∃ first c, first ++ [(c, .mark)] <+: b.during ∧ c.thread = b.opener.thread ∧
    (b.begun.after first).depth = 1

theorem after_eq (b : Block s history) : s.after history = b.begun.after b.during := by
  rw [← congrArg s.after b.split, Session.after_append, Session.after_cons]
  rfl

theorem inTransaction_after (b : Block s history) {first : History σ} (h : first <+: b.during) :
    (b.begun.after first).inTransaction = true := by
  have hopen := b.stays first h
  rwa [Session.after_append, Session.after_cons] at hopen

/-- A block begins with a transaction of its thread that is not marked. -/
theorem registers_begun (b : Block s history) :
    b.begun.registers = ⟨1, some b.opener.thread, false⟩ := by
  obtain hidle | ⟨mode, -, hbegun⟩ :=
    Action.next_idle b.opener (.acquire b.mode) (Session.registers_of_idle b.idle)
  · exact absurd (b.inTransaction_after List.nil_prefix) (Session.not_inTransaction_of_idle hidle)
  · exact hbegun

/-- The block behind one more action, if the session is still open there. -/
def extend (b : Block s history) (deed : Caller σ × Action)
    (h : (s.after (history ++ [deed])).inTransaction = true) : Block s (history ++ [deed]) where
  before := b.before
  opener := b.opener
  mode := b.mode
  during := b.during ++ [deed]
  split := by simp [← b.split]
  idle := b.idle
  stays := by
    intro first hfirst
    obtain rfl | hfirst := List.prefix_concat_iff.1 hfirst
    · rw [← List.cons_append, ← List.append_assoc, b.split]
      exact h
    · exact b.stays first hfirst

end Block

/-- Where a transaction is open, there is the block that began it. -/
theorem exists_block {s : Session σ} (hs : s.registers = .idle) (history : History σ)
    (h : (s.after history).inTransaction = true) : Nonempty (Block s history) := by
  induction history using List.reverseRecOn with
  | nil => exact absurd h (Session.not_inTransaction_of_idle hs)
  | append_singleton history deed ih =>
    by_cases hopen : (s.after history).inTransaction = true
    · obtain ⟨b⟩ := ih hopen
      exact ⟨b.extend deed h⟩
    · have hidle : (s.after history).inTransaction = false := by simpa using hopen
      obtain ⟨c, a⟩ := deed
      have hlast : (a.next c (s.after history)).inTransaction = true := by
        simpa only [Session.after_append, Session.after_cons, Session.after_nil] using h
      obtain hnone | ⟨mode, rfl, -⟩ := Action.next_idle c a (Session.registers_of_idle hidle)
      · exact absurd hlast (Session.not_inTransaction_of_idle hnone)
      · refine ⟨⟨history, c, mode, [], rfl, hidle, fun first hfirst => ?_⟩⟩
        rw [List.prefix_nil.1 hfirst, Session.after_append]
        exact hlast

/-- While a session stays open its transaction stays with the thread that began, and it is
marked exactly if that thread has marked it while the outermost level was the only one. -/
theorem registers_after {s : Session σ} {thread : Thread}
    (hs : s.registers = ⟨1, some thread, false⟩) (during : History σ)
    (hopen : ∀ first, first <+: during → (s.after first).inTransaction = true) :
    ∃ inner marked, (s.after during).registers = ⟨inner + 1, some thread, marked⟩ ∧
      (marked = true ↔ ∃ first c, first ++ [(c, .mark)] <+: during ∧ c.thread = thread ∧
        (s.after first).depth = 1) := by
  induction during using List.reverseRecOn with
  | nil => exact ⟨0, false, hs, by simp⟩
  | append_singleton during deed ih =>
    obtain ⟨inner, marked, hregisters, hmark⟩ := ih fun first hfirst =>
      hopen first (hfirst.trans (List.prefix_append ..))
    obtain ⟨c, a⟩ := deed
    have hlast : (a.next c (s.after during)).inTransaction = true := by
      simpa only [Session.after_append, Session.after_cons, Session.after_nil] using
        hopen (during ++ [(c, a)]) (List.prefix_refl _)
    rw [Session.after_append]
    obtain hidle | ⟨inner', marked', hnext, hmark'⟩ := Action.next_open c a hregisters
    · exact absurd hlast (Session.not_inTransaction_of_idle hidle)
    · refine ⟨inner', marked', hnext, ?_⟩
      rw [hmark', hmark]
      constructor
      · rintro (⟨first, c', hfirst, hthread, hdepth⟩ | ⟨rfl, hthread, hdepth⟩)
        · exact ⟨first, c', hfirst.trans (List.prefix_append ..), hthread, hdepth⟩
        · exact ⟨during, c, List.prefix_refl _, hthread, hdepth⟩
      · rintro ⟨first, c', hfirst, hthread, hdepth⟩
        -- The mark is the last action, or it stands before that.
        obtain hend | hfirst := List.prefix_concat_iff.1 hfirst
        · obtain ⟨rfl, hdeed⟩ := List.append_inj' hend rfl
          cases hdeed
          exact .inr ⟨rfl, hthread, hdepth⟩
        · exact .inl ⟨first, c', hfirst, hthread, hdepth⟩

/-! ### How blocks are closed -/

namespace Caller
variable {c : Caller σ} {s s' : Session σ}

theorem Closing.commit_mem_iff {store store' : σ} {marked : Bool} {r : Except RunError Outcome}
    {cs : List Entry} (h : c.Closing store marked r store' cs) :
    "COMMIT" ∈ cs.map Entry.sql ↔ marked = true := by
  cases h <;> simp [entry]

/-- Closing a level sends nothing, unless it is the outermost level of its thread's transaction,
which is committed exactly if it is marked. -/
theorem Finished.sends {r : Except RunError Outcome} (h : c.Finished s r s')
    (hopen : s.inTransaction = true) :
    ¬ (s.owner? = some c.thread ∧ s.depth = 1) ∧ s'.inTransaction = true ∧ s'.log = s.log ∨
      (s.owner? = some c.thread ∧ s.depth = 1) ∧ s'.inTransaction = false ∧
        ∃ cs, s'.log = s.log ++ cs ∧ Ending cs ∧
          ("COMMIT" ∈ cs.map Entry.sql ↔ s.successful = true) := by
  cases h with
  | notOpen ht => simp [Session.inTransaction, ht] at hopen
  | notOwned ht ho => exact .inl ⟨by simp [Session.owner?, ht, ho], hopen, rfl⟩
  | nested ht ho hi => exact .inl ⟨by simp [Session.depth, ht, hi], rfl, rfl⟩
  | @ended t r store cs ht ho hi hclosing =>
    refine .inr ⟨⟨by simp [Session.owner?, ht, ho], by simp [Session.depth, ht, hi]⟩, rfl, cs, rfl,
      hclosing.ending, ?_⟩
    rw [hclosing.commit_mem_iff]
    simp [Session.successful, ht]

theorem Closed.sends {r : Except RunError Unit} (h : c.Closed s r s')
    (hopen : s.inTransaction = true) :
    s'.inTransaction = false ∧
      ∃ ok, s'.log = s.log ++ [⟨c.thread, .batch, "ROLLBACK", ok⟩] := by
  cases h with
  | idle ht => simp [Session.inTransaction, ht] at hopen
  | rolledBack => exact ⟨rfl, _, rfl⟩

theorem state_begin (c : Caller σ) (mode : TransactionMode) (s : Session σ) :
    ((c.begin mode).run s).2 = (Action.acquire mode).next c s := by
  rw [run_begin, Action.next]
  rcases (c.acquire mode).run s with ⟨_ | _ | _, _⟩ <;> rfl

/-- A transaction is a history of its own: it begins, does what its body does, marks behind a
body that succeeds, and closes its level. -/
theorem state_transaction {mode : TransactionMode} {body : SessionM σ α} {deeds : History σ}
    (hbegin : ((c.begin mode).run s).1 = .ok ())
    (hbody : (body.run ((Action.acquire mode).next c s)).2 =
      ((Action.acquire mode).next c s).after deeds) :
    ((c.transaction mode body).run s).2 =
      s.after ((c, .acquire mode) :: deeds ++
        (if (body.run ((Action.acquire mode).next c s)).1.isOk then [(c, .mark)] else []) ++
        [(c, .finish)]) := by
  have henter : (c.begin mode).run s = (.ok (), (Action.acquire mode).next c s) :=
    Prod.ext hbegin (c.state_begin mode s)
  generalize hbegun : (Action.acquire mode).next c s = begun at hbody henter
  have hafter : ∀ rest : History σ,
      s.after ((c, .acquire mode) :: deeds ++ rest) = (begun.after deeds).after rest := by
    intro rest
    rw [List.cons_append, Session.after_cons, hbegun, Session.after_append]
  rw [List.append_assoc, hafter, ← hbody]
  cases hrun : body.run begun with
  | mk r left =>
    cases r with
    | error e =>
      have hinside : (do let a ← body; c.setSuccessful; return a : SessionM σ α).run begun =
          (.error e, left) := by rw [run_bind, hrun]
      exact state_bracket henter hinside
    | ok a =>
      have hinside : ∃ r', (do let a ← body; c.setSuccessful; return a : SessionM σ α).run begun =
          (r', Action.mark.next c left) := by
        refine ⟨(c.setSuccessful.run left).1.map fun _ => a, ?_⟩
        rw [run_bind, hrun]
        show (c.setSuccessful >>= fun _ => pure a).run left = _
        rw [run_bind, Action.next]
        rcases c.setSuccessful.run left with ⟨_ | _, _⟩ <;> rfl
      obtain ⟨r', hinside⟩ := hinside
      exact state_bracket henter hinside

end Caller

/-- Only the outermost owner can commit. Behind any history an open transaction has its block.
Closing a level sends nothing, unless the thread that began the block closes it with no inner
level open: that ends the block, and COMMIT is sent exactly if in this block that thread has
marked the transaction while no inner level was open; otherwise a ROLLBACK alone.
Closing the session rolls the block back. Transactions make such histories of their own, with
the mark behind a body that succeeds. -/
theorem finish_commits_iff_marked (store : σ) (history : History σ) :
    let s := (Session.start store).after history
    (s.inTransaction = true → Nonempty (Block (.start store) history)) ∧
    (∀ (b : Block (.start store) history) (c : Caller σ),
      let finished := Action.finish.next c s
      let closed := Action.close.next c s
      (¬ (c.thread = b.opener.thread ∧ s.depth = 1) ∧
          finished.inTransaction = true ∧ finished.log = s.log ∨
        (c.thread = b.opener.thread ∧ s.depth = 1) ∧ finished.inTransaction = false ∧
          ∃ cs, finished.log = s.log ++ cs ∧ Ending cs ∧
            ("COMMIT" ∈ cs.map Entry.sql ↔ b.Marked) ∧
            (¬ b.Marked → cs.map Entry.sql = ["ROLLBACK"])) ∧
      closed.inTransaction = false ∧
        ∃ ok, closed.log = s.log ++ [⟨c.thread, .batch, "ROLLBACK", ok⟩]) ∧
    ∀ (c : Caller σ) (mode : TransactionMode) {α : Type} (body : SessionM σ α) (deeds : History σ),
      let begun := (Action.acquire mode).next c s
      ((c.begin mode).run s).1 = .ok () → (body.run begun).2 = begun.after deeds →
        ((c.transaction mode body).run s).2 =
          s.after ((c, .acquire mode) :: deeds ++
            (if (body.run begun).1.isOk then [(c, .mark)] else []) ++ [(c, .finish)]) := by
  intro s
  refine ⟨exists_block (Session.registers_of_none rfl) history, fun b c => ?_,
    fun c mode _ body deeds => Caller.state_transaction⟩
  obtain ⟨inner, marked, hregisters, hmark⟩ :=
    registers_after b.registers_begun b.during fun first => b.inTransaction_after
  rw [← b.after_eq] at hregisters
  have hopen : s.inTransaction = true := by
    rw [show s = b.begun.after b.during from b.after_eq]
    exact b.inTransaction_after (List.prefix_refl _)
  have howner : s.owner? = some b.opener.thread := congrArg Registers.owner hregisters
  have hsuccessful : s.successful = marked := congrArg Registers.successful hregisters
  have hthread : s.owner? = some c.thread ↔ c.thread = b.opener.thread := by
    rw [howner, Option.some.injEq, eq_comm]
  refine ⟨?_, (c.close_cases s).sends hopen⟩
  obtain hstays | ⟨houtermost, hclosed, cs, hlog, hending, hcommit⟩ :=
    (c.finish_cases s).sends hopen
  · rw [hthread] at hstays
    exact .inl hstays
  · rw [hthread] at houtermost
    rw [hsuccessful, hmark] at hcommit
    refine .inr ⟨houtermost, hclosed, cs, hlog, hending, hcommit, fun hunmarked => ?_⟩
    have hnone : "COMMIT" ∉ cs.map Entry.sql := fun hmem => hunmarked (hcommit.1 hmem)
    cases hending with
    | committed hsql => simp [hsql] at hnone
    | commitFailed hsql => simp [hsql] at hnone
    | rolledBack hsql => simp [hsql]

/-- Two threads with a block each. The first marks inside and outside of an inner level, the
second only inside, while the first tries to mark for it. -/
def twoBlocks : History (List Rule) :=
  let one : Caller (List Rule) := ⟨Script.engine, .immediate, "one"⟩
  let two : Caller (List Rule) := ⟨Script.engine, .immediate, "two"⟩
  [(one, .acquire .deferred), (two, .mark), (one, .acquire .immediate), (one, .mark),
    (one, .finish), (one, .mark), (one, .finish), (two, .acquire .exclusive),
    (two, .acquire .immediate), (two, .mark), (one, .mark), (two, .finish)]

theorem finish_commits_iff_marked_twoBlocks :
    (∃ b : Block (.start []) (twoBlocks.take 6), b.opener.thread = "one" ∧ b.Marked) ∧
      (∃ b : Block (.start []) twoBlocks, b.opener.thread = "two" ∧ ¬ b.Marked) ∧
      let two : Caller (List Rule) := ⟨Script.engine, .immediate, "two"⟩
      ((two.transaction .immediate (two.change "DELETE FROM t")).run (.start [])).2 =
        Session.after (.start [])
          [(two, .acquire .immediate), (two, .send .execute "DELETE FROM t"), (two, .mark),
            (two, .finish)] := by
  let one : Caller (List Rule) := ⟨Script.engine, .immediate, "one"⟩
  let two : Caller (List Rule) := ⟨Script.engine, .immediate, "two"⟩
  refine ⟨?_, ?_, ?_⟩
  · obtain ⟨hblock, hends, -⟩ := finish_commits_iff_marked [] (twoBlocks.take 6)
    obtain ⟨b⟩ := hblock (by decide +kernel)
    obtain ⟨⟨-, hopen, -⟩ | ⟨⟨hthread, -⟩, -, cs, hlog, -, hcommit, -⟩, -⟩ := hends b one
    · exact absurd hopen (by decide +kernel)
    · have hcs := congrArg (List.drop ((Session.start []).after (twoBlocks.take 6)).log.length) hlog
      rw [List.drop_left] at hcs
      exact ⟨b, hthread.symm, hcommit.1 (hcs ▸ by decide +kernel)⟩
  · obtain ⟨hblock, hends, -⟩ := finish_commits_iff_marked [] twoBlocks
    obtain ⟨b⟩ := hblock (by decide +kernel)
    obtain ⟨⟨-, hopen, -⟩ | ⟨⟨hthread, -⟩, -, cs, hlog, -, hcommit, -⟩, -⟩ := hends b two
    · exact absurd hopen (by decide +kernel)
    · have hcs := congrArg (List.drop ((Session.start []).after twoBlocks).log.length) hlog
      rw [List.drop_left] at hcs
      have hnone : "COMMIT" ∉ cs.map Entry.sql := hcs ▸ by decide +kernel
      exact ⟨b, hthread.symm, fun hmarked => hnone (hcommit.2 hmarked)⟩
  · exact (finish_commits_iff_marked [] []).2.2 two .immediate (two.change "DELETE FROM t")
      [(two, .send .execute "DELETE FROM t")] rfl rfl

end SqlMaps
