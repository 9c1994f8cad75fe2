import SqlMaps.Proofs.Session.Sending

/-! What calls add to the log of a session, in whatever state it is and whoever owns its
transaction.

`Logs P` takes a session to one whose log has further entries, all of which are as `P` says.
Beginning, marking and closing a level adds brackets alone: statements of the session's own
that begin or end a transaction. So a transaction adds what its body adds, between brackets
(`log_transaction`), if it begins. -/
namespace SqlMaps
open Attempt
variable {σ α : Type}

/-- A statement by which the session itself begins or ends a transaction. -/
structure Entry.Brackets (e : Entry) : Prop where
  channel : e.channel = .batch
  control : e.isControl = true

/-- The log grows by entries as `P` says. -/
def Logs (P : Entry → Prop) (s s' : Session σ) : Prop :=
  ∃ es, s'.log = s.log ++ es ∧ ∀ e ∈ es, P e

instance (P : Entry → Prop) : Course (Logs P : Session σ → Session σ → Prop) where
  refl s := ⟨[], (List.append_nil s.log).symm, by simp⟩
  trans := by
    rintro s t u ⟨es, hlog, hes⟩ ⟨es', hlog', hes'⟩
    exact ⟨es ++ es', by rw [hlog', hlog, List.append_assoc],
      List.forall_mem_append.2 ⟨hes, hes'⟩⟩

namespace Logs
variable {P Q : Entry → Prop} {s s' : Session σ}

theorem mono (h : Logs P s s') (hPQ : ∀ e, P e → Q e) : Logs Q s s' := by
  obtain ⟨es, hlog, hes⟩ := h
  exact ⟨es, hlog, fun e he => hPQ e (hes e he)⟩

theorem of_log_eq (h : s'.log = s.log) : Logs P s s' :=
  ⟨[], by rw [h, List.append_nil], by simp⟩

theorem of_sent {store : σ} {e : Entry} (h : P e) : Logs P s (s.sent store e) :=
  ⟨[e], rfl, by simpa using h⟩

end Logs

namespace Caller
variable (c : Caller σ)

/-! ### Beginning, marking and closing a level -/

theorem brackets_entry {sql : String} (h : controls sql = true) (r : Except RunError α) :
    (c.entry .batch sql r).Brackets :=
  ⟨rfl, h⟩

theorem brackets_begin (mode : TransactionMode) (r : Except RunError α) :
    (c.entry .batch mode.beginStatement r).Brackets :=
  c.brackets_entry (Sql.Command.begin mode).controls_text r

theorem Closing.brackets {store store' : σ} {marked : Bool} {r : Except RunError Outcome}
    {cs : List Entry} (h : c.Closing store marked r store' cs) : ∀ e ∈ cs, e.Brackets := by
  have hcommit : controls "COMMIT" = true := by decide
  have hrollback : controls "ROLLBACK" = true := by decide
  cases h with
  | committed _ => simpa using c.brackets_entry hcommit _
  | commitFailed _ _ =>
    simpa using ⟨c.brackets_entry hcommit _, c.brackets_entry hrollback _⟩
  | rolledBack _ => simpa using c.brackets_entry hrollback _

theorem logs_acquire (mode : TransactionMode) : Follows (Logs Entry.Brackets) (c.acquire mode) := by
  intro s
  have hcases := c.acquire_cases mode s
  generalize (c.acquire mode).run s = p at hcases ⊢
  obtain ⟨r, s'⟩ := p
  cases hcases with
  | begun _ _ => exact ⟨_, rfl, by simpa using c.brackets_begin mode _⟩
  | refused _ _ => exact .of_sent (c.brackets_begin mode _)
  | nested _ _ => exact .of_log_eq rfl
  | busy _ _ => exact Course.refl _

theorem logs_begin (mode : TransactionMode) : Follows (Logs Entry.Brackets) (c.begin mode) := by
  refine follows_bind (c.logs_acquire mode) fun acquired => ?_
  cases acquired with
  | false => exact follows_throw _
  | true => exact follows_pure _

theorem logs_setSuccessful : Follows (Logs Entry.Brackets) c.setSuccessful := by
  intro s
  have hcases := c.setSuccessful_cases s
  generalize c.setSuccessful.run s = p at hcases ⊢
  obtain ⟨r, s'⟩ := p
  cases hcases <;> exact .of_log_eq rfl

theorem logs_finish : Follows (Logs Entry.Brackets) c.finish := by
  intro s
  have hcases := c.finish_cases s
  generalize c.finish.run s = p at hcases ⊢
  obtain ⟨r, s'⟩ := p
  cases hcases with
  | notOpen _ => exact Course.refl _
  | notOwned _ _ => exact Course.refl _
  | nested _ _ _ => exact .of_log_eq rfl
  | ended _ _ _ hclosing => exact ⟨_, rfl, Closing.brackets c hclosing⟩

/-! ### Statements and transactions -/

/-- A transaction either does not begin, or its body runs, with brackets before and behind. -/
theorem log_transaction (mode : TransactionMode) (body : SessionM σ α) (s : Session σ) :
    Logs Entry.Brackets s ((c.transaction mode body).run s).2 ∨
      ∃ u, Logs Entry.Brackets s u ∧
        Logs Entry.Brackets (body.run u).2 ((c.transaction mode body).run s).2 := by
  have hbegin := c.logs_begin mode s
  cases henter : (c.begin mode).run s with
  | mk r u =>
    rw [henter] at hbegin
    cases r with
    | error e =>
      rw [transaction, run_bracket_of_error henter]
      exact .inl hbegin
    | ok _ =>
      cases hinside : (do let a ← body; c.setSuccessful; return a : SessionM σ α).run u with
      | mk r' t =>
        have hmarked := follows_rest (R := Logs Entry.Brackets)
          (fun a => follows_bind c.logs_setSuccessful fun _ => follows_pure a) body u
        rw [hinside] at hmarked
        rw [transaction, state_bracket henter hinside]
        exact .inr ⟨u, hbegin, Course.trans hmarked (c.logs_finish t)⟩

section
variable {P : Entry → Prop} {sql : String}

theorem logs_change (h : ∀ e : Entry, e.channel = .execute → e.sql = sql → P e) :
    Follows (Logs P) (c.change sql) :=
  fun _ => .of_sent (h _ rfl rfl)

theorem logs_query (h : ∀ e : Entry, e.channel = .query → e.sql = sql → P e) :
    Follows (Logs P) (c.query sql) :=
  fun _ => .of_sent (h _ rfl rfl)

/-- A transaction adds what its body adds, and brackets. -/
theorem logs_transaction (hP : ∀ e : Entry, e.Brackets → P e) (mode : TransactionMode)
    {body : SessionM σ α} (hbody : Follows (Logs P) body) :
    Follows (Logs P) (c.transaction mode body) :=
  follows_bracket (fun s => (c.logs_begin mode s).mono hP)
    (fun s => (c.logs_setSuccessful s).mono hP) (fun s => (c.logs_finish s).mono hP) hbody

theorem logs_execute (hP : ∀ e : Entry, e.Brackets → P e)
    (h : ∀ e : Entry, e.channel = .execute → e.sql = sql → P e) :
    Follows (Logs P) (c.execute sql) :=
  follows_bind (c.logs_transaction hP _ (c.logs_change h)) fun _ => follows_pure _

end

end Caller

end SqlMaps
