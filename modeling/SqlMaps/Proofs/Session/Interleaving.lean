import SqlMaps.Proofs.Session.History

/-! Threads that cut into each other's calls.

Every thread begins, marks and closes levels, and executes statements, as often and in what
order it likes. An execute is not made in one go: its thread begins a level, sends the
statement, marks behind a success and closes the level, and other threads come between. A
thread that begins waits for the session to be free; one that only tries does not.

Between the steps of an execute its thread owns the session (`Orderly.owns`). So each block of
the log is one thread's, and nothing is executed outside of the blocks: `Serial` is kept by
every step (`Crowd.Step.orderly`). -/
namespace SqlMaps
open Attempt
variable {σ : Type}

/-! ### The steps -/

/-- Where a thread is in the call it is making. -/
inductive Place where
  /-- Between calls. -/
  | ready
  /-- The level of an execute is open; its statement comes next. -/
  | sending (sql : String)
  /-- The statement has succeeded, and is to be marked. -/
  | marking
  /-- The level of the execute is to be closed. -/
  | leaving
  deriving DecidableEq

/-- A session and the threads that use it. -/
structure Crowd (σ : Type) where
  session : Session σ
  place : Thread → Place

/-- Whether no other thread owns the session. -/
def Session.freeFor (s : Session σ) (thread : Thread) : Bool :=
  s.owner?.all (· == thread)

namespace Crowd

/-- A fresh session, and threads that have made no call. -/
def start (store : σ) : Crowd σ := ⟨.start store, fun _ => .ready⟩

/-- Another session, and one thread at another place. -/
def put (p : Crowd σ) (s : Session σ) (thread : Thread) (place : Place) : Crowd σ :=
  ⟨s, Function.update p.place thread place⟩

/-- A thread takes an action, and is at another place then. -/
def act (p : Crowd σ) (c : Caller σ) (a : Action) (place : Place) : Crowd σ :=
  p.put (a.next c p.session) c.thread place

@[simp] theorem session_put (p : Crowd σ) (s : Session σ) (thread : Thread) (place : Place) :
    (p.put s thread place).session = s := rfl

@[simp] theorem place_put (p : Crowd σ) (s : Session σ) (thread : Thread) (place : Place) :
    (p.put s thread place).place thread = place :=
  Function.update_self ..

theorem place_put_of_ne (p : Crowd σ) (s : Session σ) {thread other : Thread} (place : Place)
    (h : other ≠ thread) : (p.put s thread place).place other = p.place other :=
  Function.update_of_ne h ..

@[simp] theorem act_put (p : Crowd σ) (s : Session σ) (c : Caller σ) (a : Action)
    (first second : Place) :
    (p.put s c.thread first).act c a second = p.put (a.next c s) c.thread second := by
  simp [act, put]

/-- A thread that ends up where it was. -/
theorem put_of_place {p : Crowd σ} {thread : Thread} {place : Place}
    (h : p.place thread = place) (s : Session σ) : p.put s thread place = ⟨s, p.place⟩ := by
  rw [put, ← h, Function.update_eq_self]

/-- One step of one thread. -/
inductive Step : Crowd σ → Crowd σ → Prop where
  | begin {p : Crowd σ} (c : Caller σ) (mode : TransactionMode) : p.place c.thread = .ready →
      p.session.freeFor c.thread = true → Step p (p.act c (.acquire mode) .ready)
  | tryBegin {p : Crowd σ} (c : Caller σ) (mode : TransactionMode) : p.place c.thread = .ready →
      Step p (p.act c (.acquire mode) .ready)
  | mark {p : Crowd σ} (c : Caller σ) : p.place c.thread = .ready → Step p (p.act c .mark .ready)
  | finish {p : Crowd σ} (c : Caller σ) : p.place c.thread = .ready →
      Step p (p.act c .finish .ready)
  /-- An execute begins its level; the call is over if that fails. -/
  | enter {p : Crowd σ} (c : Caller σ) (sql : String) : p.place c.thread = .ready →
      p.session.freeFor c.thread = true →
      Step p (p.act c (.acquire c.defaultMode)
        (if ((c.begin c.defaultMode).run p.session).1.isOk then .sending sql else .ready))
  | send {p : Crowd σ} (c : Caller σ) (sql : String) : p.place c.thread = .sending sql →
      Step p (p.act c (.send .execute sql)
        (if ((c.change sql).run p.session).1.isOk then .marking else .leaving))
  | succeed {p : Crowd σ} (c : Caller σ) : p.place c.thread = .marking →
      Step p (p.act c .mark .leaving)
  | leave {p : Crowd σ} (c : Caller σ) : p.place c.thread = .leaving →
      Step p (p.act c .finish .ready)

/-- Steps of any threads, one after another. -/
def Reaches : Crowd σ → Crowd σ → Prop :=
  Relation.ReflTransGen Step

end Crowd

/-! ### Blocks of one thread each -/

/-- What a thread sends in a block: a BEGIN that succeeds, and the statements executed. -/
inductive Underway (thread : Thread) : List Entry → Prop where
  | begun {e : Entry} : e.Begins → e.channel = .batch → e.succeeded = true → e.thread = thread →
      Underway thread [e]
  | executed {es : List Entry} {e : Entry} : Underway thread es → e.channel = .execute →
      e.thread = thread → Underway thread (es ++ [e])

/-- A log in blocks, each of one thread from its BEGIN to its ending, with refused BEGINs
between them. The last block may lack its ending; it is of the thread given then. -/
inductive Serial : Option Thread → List Entry → Prop where
  | nil : Serial none []
  | refused {es : List Entry} {e : Entry} : Serial none es → e.Begins → e.channel = .batch →
      e.succeeded = false → Serial none (es ++ [e])
  | block {es body ending : List Entry} {thread : Thread} : Serial none es →
      Underway thread body → Ending ending →
      (∀ e ∈ ending, e.channel = .batch ∧ e.thread = thread) →
      Serial none (es ++ (body ++ ending))
  | underway {es body : List Entry} {thread : Thread} : Serial none es → Underway thread body →
      Serial (some thread) (es ++ body)

namespace Serial
variable {thread : Thread} {es cs : List Entry} {e : Entry}

theorem executed (h : Serial (some thread) es) (hchannel : e.channel = .execute)
    (hthread : e.thread = thread) : Serial (some thread) (es ++ [e]) := by
  cases h with
  | underway hes hbody =>
    rw [List.append_assoc]
    exact .underway hes (.executed hbody hchannel hthread)

theorem ended (h : Serial (some thread) es) (hending : Ending cs)
    (hcs : ∀ e ∈ cs, e.channel = .batch ∧ e.thread = thread) : Serial none (es ++ cs) := by
  cases h with
  | underway hes hbody =>
    rw [List.append_assoc]
    exact .block hes hbody hending hcs

end Serial

namespace Caller
variable {c : Caller σ} {s s' : Session σ}

theorem Acquired.serial {mode : TransactionMode} {r : Except RunError Bool}
    (h : c.Acquired mode s r s') (hs : Serial s.owner? s.log) : Serial s'.owner? s'.log := by
  cases h with
  | begun ht hbatch =>
    rw [Session.owner?_of_none ht] at hs
    exact .underway hs (.begun (c.begins_entry mode _) rfl rfl rfl)
  | refused ht hbatch =>
    rw [Session.owner?_of_none ht] at hs
    exact (Session.owner?_of_none ht) ▸ .refused hs (c.begins_entry mode _) rfl rfl
  | nested ht ho =>
    rw [Session.owner?_of_some ht] at hs
    exact hs
  | busy => exact hs

theorem Marked.same {r : Except RunError Unit} (h : c.Marked s r s') :
    s'.owner? = s.owner? ∧ s'.log = s.log := by
  cases h with
  | notOpen => exact ⟨rfl, rfl⟩
  | notOwned => exact ⟨rfl, rfl⟩
  | inside => exact ⟨rfl, rfl⟩
  | marked ht => exact ⟨(Session.owner?_of_some ht).symm, rfl⟩

theorem Closing.sender {store store' : σ} {marked : Bool} {r : Except RunError Outcome}
    {cs : List Entry} (h : c.Closing store marked r store' cs) :
    ∀ e ∈ cs, e.channel = .batch ∧ e.thread = c.thread := by
  cases h <;> simp [entry]

theorem Finished.serial {r : Except RunError Outcome} (h : c.Finished s r s')
    (hs : Serial s.owner? s.log) : Serial s'.owner? s'.log := by
  cases h with
  | notOpen => exact hs
  | notOwned => exact hs
  | nested ht =>
    rw [Session.owner?_of_some ht] at hs
    exact hs
  | ended ht ho hi hclosing =>
    rw [Session.owner?_of_some ht, ho] at hs
    exact hs.ended hclosing.ending hclosing.sender

end Caller

/-- What a thread does while another owns the session does not change that. -/
theorem Action.owner_next (c : Caller σ) {a : Action} (ha : a ≠ .close) {s : Session σ}
    {thread : Thread} (hs : s.owner? = some thread) (hne : c.thread ≠ thread) :
    (a.next c s).owner? = some thread := by
  have hnext := a.next_registers c s
  have howner : s.registers.owner = some thread := hs
  have hother : ¬ thread = c.thread := fun h => hne h.symm
  suffices h : s.registers.next c s.store a = some s.registers by
    have hsame : (a.next c s).registers = s.registers := Option.some.inj (hnext.symm.trans h)
    exact (congrArg Registers.owner hsame).trans hs
  cases a with
  | acquire mode => simp only [Registers.next, howner, if_neg hother]
  | mark => simp [Registers.next, howner, hother]
  | finish => simp [Registers.next, howner, hother]
  | send => rfl
  | close => exact absurd rfl ha

/-! ### Every step keeps the order -/

namespace Crowd

/-- The log is in blocks, the last one of the owner; and only the owner is in a call. -/
structure Orderly (p : Crowd σ) : Prop where
  serial : Serial p.session.owner? p.session.log
  owns : ∀ thread, p.place thread ≠ .ready → p.session.owner? = some thread

theorem orderly_start (store : σ) : (start store).Orderly :=
  ⟨.nil, fun _ h => absurd rfl h⟩

/-- An action that keeps the blocks keeps the order, if its thread is the owner when the call
goes on. -/
theorem Orderly.act {p : Crowd σ} (h : p.Orderly) {c : Caller σ} {a : Action} {place : Place}
    (ha : a ≠ .close)
    (hserial : Serial (a.next c p.session).owner? (a.next c p.session).log)
    (hplace : place ≠ .ready → (a.next c p.session).owner? = some c.thread) :
    (p.act c a place).Orderly := by
  refine ⟨hserial, fun thread hbusy => ?_⟩
  by_cases hthread : thread = c.thread
  · subst hthread
    exact hplace (by simpa only [Crowd.act, place_put] using hbusy)
  · have hother : p.place thread ≠ .ready := by
      simpa only [Crowd.act, place_put_of_ne _ _ _ hthread] using hbusy
    exact Action.owner_next c ha (h.owns thread hother) (Ne.symm hthread)

theorem Orderly.acquire {p : Crowd σ} (h : p.Orderly) (c : Caller σ) (mode : TransactionMode)
    {place : Place} (hplace : place ≠ .ready → ((c.begin mode).run p.session).1.isOk = true) :
    (p.act c (.acquire mode) place).Orderly := by
  have hcases := c.acquire_cases mode p.session
  refine h.act (by simp) (hcases.serial h.serial) fun hbusy => ?_
  have hbegin := hplace hbusy
  rw [c.run_begin] at hbegin
  rw [Action.next]
  generalize (c.acquire mode).run p.session = out at hbegin hcases
  obtain ⟨_ | _ | _, s'⟩ := out
  · cases hbegin
  · cases hbegin
  · exact hcases.owner

theorem Orderly.mark {p : Crowd σ} (h : p.Orderly) (c : Caller σ) {place : Place}
    (hplace : place ≠ .ready → p.session.owner? = some c.thread) :
    (p.act c .mark place).Orderly := by
  obtain ⟨howner, hlog⟩ := (c.setSuccessful_cases p.session).same
  refine h.act (by simp) ?_ fun hbusy => howner.trans (hplace hbusy)
  rw [Action.next, howner, hlog]
  exact h.serial

theorem Orderly.finish {p : Crowd σ} (h : p.Orderly) (c : Caller σ) :
    (p.act c .finish .ready).Orderly :=
  h.act (by simp) ((c.finish_cases p.session).serial h.serial) fun hbusy => absurd rfl hbusy

theorem Orderly.send {p : Crowd σ} (h : p.Orderly) (c : Caller σ) (sql : String) {place : Place}
    (howner : p.session.owner? = some c.thread) :
    (p.act c (.send .execute sql) place).Orderly := by
  obtain ⟨store, ok, hnext⟩ := Action.next_send c p.session .execute sql
  have hsame : ((Action.send .execute sql).next c p.session).owner? = some c.thread := by
    rw [hnext]
    exact howner
  refine h.act (by simp) ?_ fun _ => hsame
  have hserial := h.serial
  rw [howner] at hserial
  rw [hsame, hnext]
  exact hserial.executed rfl rfl

theorem Step.orderly {p q : Crowd σ} (h : Step p q) (hp : p.Orderly) : q.Orderly := by
  cases h with
  | begin c mode => exact hp.acquire c mode fun hbusy => absurd rfl hbusy
  | tryBegin c mode => exact hp.acquire c mode fun hbusy => absurd rfl hbusy
  | mark c => exact hp.mark c fun hbusy => absurd rfl hbusy
  | finish c => exact hp.finish c
  | enter c sql hready =>
    refine hp.acquire c c.defaultMode fun hbusy => ?_
    by_contra hfailed
    rw [if_neg hfailed] at hbusy
    exact hbusy rfl
  | send c sql hplace => exact hp.send c sql (hp.owns c.thread (by simp [hplace]))
  | succeed c hplace => exact hp.mark c fun _ => hp.owns c.thread (by simp [hplace])
  | leave c => exact hp.finish c

theorem Reaches.orderly {p q : Crowd σ} (h : Reaches p q) (hp : p.Orderly) : q.Orderly := by
  induction h with
  | refl => exact hp
  | tail _ hstep ih => exact hstep.orderly ih

end Crowd

/-! ### An execute is made of such steps -/

theorem Caller.state_execute (c : Caller σ) (sql : String) (s : Session σ) :
    ((c.execute sql).run s).2 = ((c.transaction c.defaultMode (c.change sql)).run s).2 :=
  congrArg Prod.snd (c.run_execute sql s)

namespace Crowd

/-- A thread that is ready makes an execute by the steps of one. -/
theorem reaches_execute {p : Crowd σ} (c : Caller σ) (sql : String)
    (hready : p.place c.thread = .ready) (hfree : p.session.freeFor c.thread = true) :
    Reaches p ⟨((c.execute sql).run p.session).2, p.place⟩ := by
  let begun := (Action.acquire c.defaultMode).next c p.session
  let sent := (Action.send .execute sql).next c begun
  have henter := Step.enter c sql hready hfree
  rw [c.state_execute, ← put_of_place hready]
  cases hbegin : ((c.begin c.defaultMode).run p.session).1 with
  | error e =>
    have hrun : (c.begin c.defaultMode).run p.session = (.error e, begun) :=
      Prod.ext hbegin (c.state_begin c.defaultMode p.session)
    rw [Caller.transaction, run_bracket_of_error hrun]
    rw [hbegin] at henter
    exact .single henter
  | ok u =>
    rw [hbegin] at henter
    have hsend := Step.send (p := p.put begun c.thread (.sending sql)) c sql (place_put ..)
    have hsends : ((c.change sql).run begun).2 = begun.after [(c, .send .execute sql)] := rfl
    rw [c.state_transaction hbegin hsends]
    refine (Relation.ReflTransGen.single henter).trans ?_
    by_cases hok : ((c.change sql).run begun).1.isOk = true
    · rw [session_put, act_put, if_pos hok] at hsend
      have hmark := Step.succeed (p := p.put sent c.thread .marking) c (place_put ..)
      have hleave := Step.leave (p := p.put (Action.mark.next c sent) c.thread .leaving) c
        (place_put ..)
      rw [act_put] at hmark hleave
      rw [if_pos hok]
      exact ((Relation.ReflTransGen.single hsend).tail hmark).tail hleave
    · rw [session_put, act_put, if_neg hok] at hsend
      have hleave := Step.leave (p := p.put sent c.thread .leaving) c (place_put ..)
      rw [act_put] at hleave
      rw [if_neg hok]
      exact (Relation.ReflTransGen.single hsend).tail hleave

/-- Transactions of different threads never interleave. However the threads cut into each
other, the log is in blocks of one thread each, and nothing is executed outside of them; the
last block, if it lacks its ending, is of the owner, and the owner alone is inside an execute.
These are the runs of the session: an execute made in one go is made of such steps. -/
theorem serial_of_reaches (store : σ) :
    (∀ p, Reaches (start store) p →
      Serial p.session.owner? p.session.log ∧
        ∀ thread, p.place thread ≠ .ready → p.session.owner? = some thread) ∧
    ∀ (p : Crowd σ) (c : Caller σ) (sql : String), p.place c.thread = .ready →
      p.session.freeFor c.thread = true →
        Reaches p ⟨((c.execute sql).run p.session).2, p.place⟩ := by
  refine ⟨fun p h => ?_, fun p c sql => reaches_execute c sql⟩
  have horderly := h.orderly (orderly_start store)
  exact ⟨horderly.serial, horderly.owns⟩

/-- A thread executes inside of a level that it rolls back, cut into by another, which then
executes in one go. -/
theorem serial_of_reaches_cutInto :
    (∃ p : Crowd (List Rule), Reaches (start []) p ∧ p.place "one" = .marking ∧
      p.session.owner? = some "one" ∧ Serial (some "one") p.session.log) ∧
    ∃ p : Crowd (List Rule), Reaches (start []) p ∧ Serial none p.session.log ∧
      p.session.log.map (fun e => (e.thread, e.sql)) =
        [("one", "BEGIN IMMEDIATE"), ("one", "DELETE FROM t"), ("one", "ROLLBACK"),
          ("two", "BEGIN DEFERRED"), ("two", "DELETE FROM u"), ("two", "COMMIT")] := by
  let one : Caller (List Rule) := ⟨Script.engine, .immediate, "one"⟩
  let two : Caller (List Rule) := ⟨Script.engine, .deferred, "two"⟩
  have hbegin : Step (start []) _ := .begin one .immediate rfl rfl
  have hbegun : Reaches (start []) _ := (Relation.ReflTransGen.single hbegin).tail
    (.tryBegin two .immediate (by decide +kernel))
  have hsent := ((hbegun.tail
    (.enter one "DELETE FROM t" (by decide +kernel) (by decide +kernel))).tail
    (.mark two (by decide +kernel))).tail
    (.send one "DELETE FROM t" (by decide +kernel))
  have hfinished := ((hsent.tail
    (.succeed one (by decide +kernel))).tail
    (.leave one (by decide +kernel))).tail
    (.finish one (by decide +kernel))
  have hexecuted := hfinished.trans ((serial_of_reaches []).2 _ two "DELETE FROM u"
    (by decide +kernel) (by decide +kernel))
  obtain ⟨hinside, howner⟩ := (serial_of_reaches []).1 _ hsent
  have hone := howner "one" (by decide +kernel)
  rw [hone] at hinside
  refine ⟨⟨_, hsent, by decide +kernel, hone, hinside⟩, _, hexecuted, ?_, by decide +kernel⟩
  exact ((serial_of_reaches []).1 _ hexecuted).1

end Crowd

end SqlMaps
