import SqlMaps.Proofs.Session.Sending

/-! Calls that fail only where a statement has failed.

`Gives` is about success alone. `Yields` is about failure too: the computation succeeds as it should,
or the count of what has failed is higher afterwards. It is closed under the ways computations are put
together, so what is known to have sent nothing that failed has succeeded. -/
namespace SqlMaps

namespace Attempt
variable {σ α β : Type}

/-- If the computation begins in a state as `P` says, it succeeds with a result and a state as `Q`
says, or it fails and its failure is counted. The count never goes down. -/
def Yields (count : σ → Nat) (P : σ → Prop) (x : Attempt σ α) (Q : α → σ → Prop) : Prop :=
  ∀ ⦃s⦄, P s → (∃ a s', x.run s = (.ok a, s') ∧ Q a s' ∧ count s ≤ count s') ∨
    ∃ e s', x.run s = (.error e, s') ∧ count s < count s'

section Yields
variable {count : σ → Nat} {P P' : σ → Prop} {Q : α → σ → Prop} {R : β → σ → Prop}

/-- Where nothing is counted that was not counted before, the computation has succeeded. -/
theorem Yields.run_eq {x : Attempt σ α} (h : Yields count P x Q) {s s' : σ} {r : Except RunError α}
    (hs : P s) (hrun : x.run s = (r, s')) (hcount : count s' = count s) :
    ∃ a, r = .ok a ∧ Q a s' := by
  obtain ⟨a, t, hok, hq, -⟩ | ⟨e, t, herror, hlt⟩ := h hs
  · cases hrun.symm.trans hok
    exact ⟨a, rfl, hq⟩
  · cases hrun.symm.trans herror
    omega

/-- What is known of a success is known of it. -/
theorem Yields.gives {x : Attempt σ α} {Q' : α → σ → Prop} (h : Yields count P' x Q')
    (hpre : ∀ {s}, P s → P' s) (hx : Gives P x Q) : Yields count P x Q := by
  intro s hs
  obtain ⟨a, s', hrun, -, hle⟩ | hfailed := h (hpre hs)
  · exact .inl ⟨a, s', hrun, hx hs hrun, hle⟩
  · exact .inr hfailed

theorem Yields.post {x : Attempt σ α} {Q' : α → σ → Prop} (hx : Yields count P x Q)
    (h : ∀ {a s}, Q a s → Q' a s) : Yields count P x Q' := by
  intro s hs
  obtain ⟨a, s', hrun, hq, hle⟩ | hfailed := hx hs
  · exact .inl ⟨a, s', hrun, h hq, hle⟩
  · exact .inr hfailed

theorem yields_of_pre {x : Attempt σ α} (h : ∀ {s}, P s → P' s) (hx : Yields count P' x Q) :
    Yields count P x Q :=
  fun _ hs => hx (h hs)

/-- A fact about the beginning that no state can change is there for the computation. -/
theorem yields_of_fact {p : Prop} {x : Attempt σ α} (h : p → Yields count P x Q) :
    Yields count (fun s => p ∧ P s) x Q :=
  fun _ hs => h hs.1 hs.2

theorem yields_pure (a : α) : Yields count P (pure a) fun b s => b = a ∧ P s :=
  fun s hs => .inl ⟨a, s, rfl, ⟨rfl, hs⟩, Nat.le_refl _⟩

theorem yields_settled {r : Except RunError α} {a : α} (h : r = .ok a) :
    Yields count P (settled r) fun b s => b = a ∧ P s :=
  fun s hs => .inl ⟨a, s, by rw [run_settled, h], ⟨rfl, hs⟩, Nat.le_refl _⟩

/-- A step that succeeds hands on what it gives, and a failure stays counted. -/
theorem yields_bind {x : Attempt σ α} {f : α → Attempt σ β} (hx : Yields count P x Q)
    (hf : ∀ a, Yields count (Q a) (f a) R) : Yields count P (x >>= f) R := by
  intro s hs
  rw [run_bind]
  obtain ⟨a, s₁, hrun, hq, hle⟩ | ⟨e, s₁, hrun, hlt⟩ := hx hs
  · rw [hrun]
    obtain ⟨b, s', hrest, hr, hle'⟩ | ⟨e, s', hrest, hlt⟩ := hf a hq
    · exact .inl ⟨b, s', hrest, hr, Nat.le_trans hle hle'⟩
    · exact .inr ⟨e, s', hrest, Nat.lt_of_le_of_lt hle hlt⟩
  · rw [hrun]
    exact .inr ⟨e, s₁, rfl, hlt⟩

end Yields

end Attempt

namespace Session
variable {σ : Type}

/-- How many of the statements sent have failed. -/
def failures (s : Session σ) : Nat :=
  s.log.countP fun e => !e.succeeded

theorem failures_of_log {s s' : Session σ} {es : List Entry} (h : s'.log = s.log ++ es) :
    s'.failures = s.failures + es.countP fun e => !e.succeeded := by
  rw [failures, h, List.countP_append]
  rfl

theorem failures_sent (s : Session σ) (store : σ) (e : Entry) :
    (s.sent store e).failures = s.failures + if e.succeeded then 0 else 1 := by
  have hlog : (s.sent store e).log = s.log ++ [e] := rfl
  rw [failures_of_log hlog]
  cases he : e.succeeded <;> simp [he]

/-- Everything that has been sent since has succeeded. -/
def Unfailing (s s' : Session σ) : Prop :=
  ∃ es, s'.log = s.log ++ es ∧ ∀ e ∈ es, e.succeeded = true

theorem Unfailing.failures_eq {s s' : Session σ} (h : s.Unfailing s') :
    s'.failures = s.failures := by
  obtain ⟨es, hlog, hes⟩ := h
  have hnone : es.countP (fun e => !e.succeeded) = 0 :=
    List.countP_eq_zero.2 fun e he => by simp [hes e he]
  rw [failures_of_log hlog, hnone, Nat.add_zero]

end Session

namespace Caller
open Attempt
variable {σ : Type} (c : Caller σ)

theorem yields_query (sql : String) :
    Yields Session.failures (fun _ => True) (c.query sql) fun _ _ => True := by
  intro s _
  rw [run_query]
  cases hq : c.engine.query sql s.store with
  | mk r store =>
    have hfailures := s.failures_sent store (c.entry .query sql r)
    cases r with
    | ok rows => exact .inl ⟨rows, _, rfl, trivial, Nat.le_of_eq hfailures.symm⟩
    | error e => exact .inr ⟨e, _, rfl, hfailures ▸ Nat.lt_succ_self _⟩

theorem yields_queryAbout (about : String) (command : Sql.Command) :
    Yields Session.failures (fun _ => True) (c.queryAbout about command) fun _ _ => True := by
  intro s _
  rw [queryAbout, run_bind, run_settle]
  obtain ⟨rows, s', hrun, -, hle⟩ | ⟨e, s', hrun, hlt⟩ := c.yields_query command.text trivial
  · rw [hrun]
    exact .inl ⟨rows, s', rfl, trivial, hle⟩
  · rw [hrun]
    cases e <;> exact .inr ⟨_, s', rfl, hlt⟩

end Caller

end SqlMaps
