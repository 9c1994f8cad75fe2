import Mathlib.Logic.Relation
import SqlMaps.Proofs.Session.Outcomes
import SqlMaps.Session.Schedule

/-! What threads do to a session, one action at a time.

An action is what a thread does without another coming between: it begins, marks or closes
a level, sends one statement, or closes the session. `Step` lets any thread take any
action next, as long as no statement of its own controls transactions; a thread that
begins while another owns the transaction changes nothing, which is to say that it waits.
`follows_run` says that programs of calls take a session along such steps and no others,
and `moves_turns` says the same of schedules of many threads. -/
namespace SqlMaps
open Attempt
variable {σ α : Type}

/-- The statements that control transactions. -/
def controlTexts : List String :=
  TransactionMode.all.map TransactionMode.beginStatement ++ ["COMMIT", "ROLLBACK"]

/-- Whether a statement controls transactions. -/
def controls (sql : String) : Bool :=
  controlTexts.contains sql

theorem controls_of_head {sql : String} (ch : Char) (hne : ch ∉ ['B', 'C', 'R'])
    (h : sql.toList.head? = some ch) : controls sql = false := by
  have hheads : ∀ text ∈ controlTexts, text.toList.head? ∈ [some 'B', some 'C', some 'R'] := by
    decide
  simp only [controls, List.contains_eq_mem, decide_eq_false_iff_not]
  intro hmem
  have hhead := hheads sql hmem
  rw [h] at hhead
  exact hne (by simpa using hhead)

theorem head_append {a b : String} {ch : Char} (h : a.toList.head? = some ch) :
    (a ++ b).toList.head? = some ch := by
  rw [String.toList_append, List.head?_append, h]
  rfl

namespace Sql.Command

/-- Whether the statement controls transactions. -/
def isControl : Command → Bool
  | begin _ | commit | rollback => true
  | _ => false

/-- Names and values never make a control statement of one that is none. -/
theorem controls_text : (command : Command) → controls command.text = command.isControl
  | begin mode => by cases mode <;> decide
  | commit => by decide
  | rollback => by decide
  | readVersion => by decide
  | setVersion _ => controls_of_head 'P' (by decide) (head_append rfl)
  | vacuum => by decide
  | tableNames => by decide
  | columns _ => controls_of_head 'S' (by decide) (by (repeat apply head_append); rfl)
  | countRows _ => controls_of_head 'S' (by decide) (head_append rfl)
  | rowIds _ => controls_of_head 'S' (by decide) (head_append rfl)
  | copyRows .. => controls_of_head 'S' (by decide) (by (repeat apply head_append); rfl)
  | insert .. => controls_of_head 'I' (by decide) (by (repeat apply head_append); rfl)
  | update .. => controls_of_head 'U' (by decide) (by (repeat apply head_append); rfl)

end Sql.Command

/-- What a thread does to a session in one go. -/
inductive Action where
  | acquire (mode : TransactionMode)
  | mark
  | finish
  | send (channel : Channel) (sql : String)
  | close

namespace Action

/-- The session after an action. -/
def next (c : Caller σ) (s : Session σ) : Action → Session σ
  | acquire mode => ((c.acquire mode).run s).2
  | mark => (c.setSuccessful.run s).2
  | finish => (c.finish.run s).2
  | send .batch sql => ((c.batch sql).run s).2
  | send .execute sql => ((c.change sql).run s).2
  | send .query sql => ((c.query sql).run s).2
  | close => (c.close.run s).2

/-- Whether the action leaves the control of transactions to the session. -/
def plain : Action → Bool
  | send _ sql => !controls sql
  | _ => true

/-- A plain statement adds one entry to the log, which is no control statement. -/
theorem next_send (c : Caller σ) (s : Session σ) (channel : Channel) (sql : String) :
    ∃ store ok, (send channel sql).next c s = s.sent store ⟨c.thread, channel, sql, ok⟩ := by
  cases channel
  · exact ⟨_, _, congrArg Prod.snd (c.run_batch sql s)⟩
  · exact ⟨_, _, congrArg Prod.snd (c.run_change sql s)⟩
  · exact ⟨_, _, congrArg Prod.snd (c.run_query sql s)⟩

end Action

/-- One plain action of any thread. -/
inductive Step : Session σ → Session σ → Prop where
  | act {s : Session σ} (c : Caller σ) (a : Action) : a.plain = true → Step s (a.next c s)

/-- Plain actions of any threads, one after another. -/
def Moves : Session σ → Session σ → Prop :=
  Relation.ReflTransGen Step

/-- A session that plain actions of any threads can lead to. -/
def Reachable (store : σ) (s : Session σ) : Prop :=
  Moves (.start store) s

instance : Course (Moves : Session σ → Session σ → Prop) where
  refl _ := .refl
  trans h h' := Relation.ReflTransGen.trans h h'

theorem Action.moves (c : Caller σ) {a : Action} (h : a.plain = true) (s : Session σ) :
    Moves s (a.next c s) :=
  .single (.act c a h)

/-! ### The calls of one thread -/

namespace Caller
variable (c : Caller σ)

theorem follows_acquire (mode : TransactionMode) : Follows Moves (c.acquire mode) :=
  Action.moves c (a := .acquire mode) rfl

theorem follows_setSuccessful : Follows Moves c.setSuccessful :=
  Action.moves c (a := .mark) rfl

theorem follows_finish : Follows Moves c.finish :=
  Action.moves c (a := .finish) rfl

theorem follows_close : Follows Moves c.close :=
  Action.moves c (a := .close) rfl

section
variable {sql : String} (h : controls sql = false)
include h

theorem follows_batch : Follows Moves (c.batch sql) :=
  Action.moves c (a := .send .batch sql) (by simp [Action.plain, h])

theorem follows_change : Follows Moves (c.change sql) :=
  Action.moves c (a := .send .execute sql) (by simp [Action.plain, h])

theorem follows_query : Follows Moves (c.query sql) :=
  Action.moves c (a := .send .query sql) (by simp [Action.plain, h])

end

theorem follows_begin (mode : TransactionMode) : Follows Moves (c.begin mode) := by
  refine follows_bind (c.follows_acquire mode) fun acquired => ?_
  cases acquired with
  | false => exact follows_throw _
  | true => exact follows_pure _

/-- A transaction moves as its body moves. -/
theorem follows_transaction (mode : TransactionMode) {body : SessionM σ α}
    (h : Follows Moves body) : Follows Moves (c.transaction mode body) :=
  follows_bracket (c.follows_begin mode) c.follows_setSuccessful c.follows_finish h

theorem follows_execute {sql : String} (h : controls sql = false) :
    Follows Moves (c.execute sql) :=
  follows_bind (c.follows_transaction c.defaultMode (c.follows_change h)) fun _ => follows_pure _

theorem follows_userVersion : Follows Moves c.userVersion := by
  refine follows_bind (c.follows_query Sql.Command.readVersion.controls_text) fun rows => ?_
  cases rows.record? 0 with
  | none => exact follows_throw _
  | some r => exact follows_settled _

theorem follows_setUserVersion (version : Int64) : Follows Moves (c.setUserVersion version) :=
  c.follows_batch (Sql.Command.setVersion version).controls_text

theorem follows_optimize : Follows Moves c.optimize := by
  have hvacuum : Follows Moves (c.batch Sql.Command.vacuum.text) :=
    c.follows_batch Sql.Command.vacuum.controls_text
  refine follows_bind follows_get fun s => ?_
  cases s.inTransaction with
  | false => exact hvacuum
  | true => exact follows_bind (follows_throw _) fun _ => hvacuum

end Caller

/-! ### Programs of calls -/

namespace Call

mutual

/-- Whether no statement of the call controls transactions. -/
def plain : Call → Bool
  | .execute sql | .executeRaw sql | .query sql => !controls sql
  | .transaction _ body _ => allPlain body
  | .must call => call.plain
  | _ => true

/-- Whether all calls of a body are plain. -/
def allPlain : List Call → Bool
  | [] => true
  | call :: calls => call.plain && allPlain calls

end

/-- The session of a program moves. -/
def PlayMoves (p q : Play σ) : Prop :=
  Moves p.session q.session

instance : Course (PlayMoves : Play σ → Play σ → Prop) where
  refl p := Course.refl p.session
  trans h h' := Course.trans (R := Moves) h h'

theorem follows_onSession {x : SessionM σ α} (h : Follows Moves x) :
    Follows PlayMoves (onSession x) :=
  fun p => h p.session

/-- What only keeps the books of a program leaves its session alone. -/
theorem follows_books {f : Play σ → Play σ} (h : ∀ p, (f p).session = p.session) :
    Follows PlayMoves (modify f : PlayM σ Unit) := by
  intro p
  show Moves p.session (f p).session
  rw [h p]
  exact Course.refl _

theorem follows_note (reply : Reply) : Follows PlayMoves (note reply : PlayM σ Unit) :=
  follows_books fun _ => rfl

theorem follows_replying (ofResult : α → Reply) {x : SessionM σ α} (h : Follows Moves x) :
    Follows PlayMoves (replying ofResult x) := by
  refine follows_bind (follows_onSession (follows_settle h)) fun result => ?_
  cases result with
  | ok a => exact follows_pure _
  | error e => exact follows_pure _

theorem follows_continueAfter (must : Bool) (reply : Reply) :
    Follows PlayMoves (continueAfter must reply : PlayM σ Unit) := by
  refine follows_of_unchanged fun p => ?_
  cases hc : p.crashed <;> cases reply <;> cases must <;>
    simp [continueAfter, run_bind, hc]

/-- A transaction of a program moves as its body moves; after a crash it is not closed. -/
theorem follows_inTransaction (c : Caller σ) (mode : TransactionMode) {body : PlayM σ Unit}
    (h : Follows PlayMoves body) : Follows PlayMoves (inTransaction c mode body) := by
  have hleave : Follows PlayMoves (do
      if (← get).crashed then return .nested else onSession c.finish : PlayM σ Outcome) := by
    refine follows_bind follows_get fun p => ?_
    cases p.crashed with
    | true => exact follows_pure _
    | false => exact follows_onSession c.follows_finish
  refine follows_bind follows_get fun p => follows_bind (follows_books fun _ => rfl) fun _ => ?_
  refine follows_bind (follows_settle (follows_bracket (follows_onSession (c.follows_begin mode))
    (follows_onSession c.follows_setSuccessful) hleave h)) fun ending => ?_
  refine follows_bind follows_get fun q => follows_bind (follows_books fun _ => rfl) fun _ => ?_
  refine follows_bind follows_get fun q' => ?_
  cases q'.crashed with
  | true => exact follows_pure _
  | false => exact follows_pure _

mutual

/-- A plain call takes the session along plain actions. -/
theorem follows_run (c : Caller σ) : (call : Call) → call.plain = true →
    Follows PlayMoves (run c call)
  | .begin mode, _ => follows_replying _ (c.follows_begin _)
  | .tryBegin mode, _ => follows_replying _ (c.follows_acquire mode)
  | .setSuccessful, _ => follows_replying _ c.follows_setSuccessful
  | .finish, _ => follows_replying _ c.follows_finish
  | .execute sql, h => follows_replying _ (c.follows_execute (by simpa [plain] using h))
  | .executeRaw sql, h => follows_replying _ (c.follows_batch (by simpa [plain] using h))
  | .query sql, h => follows_replying _ (c.follows_query (by simpa [plain] using h))
  | .userVersion, _ => follows_replying _ c.follows_userVersion
  | .setUserVersion version, _ => follows_replying _ (c.follows_setUserVersion version)
  | .optimize, _ => follows_replying _ c.follows_optimize
  | .transaction mode body failure, h => by
    refine follows_inTransaction c mode ?_
    refine follows_bind (follows_runAll c body (by simpa [plain] using h)) fun _ => ?_
    cases failure with
    | none => exact follows_pure _
    | some e => exact follows_throw e
  | .must call, h => follows_run c call (by simpa [plain] using h)
  | .crash, _ => follows_bind (follows_books fun _ => rfl) fun _ => follows_pure _

theorem follows_runAll (c : Caller σ) : (calls : List Call) → allPlain calls = true →
    Follows PlayMoves (runAll c calls)
  | [], _ => follows_pure _
  | call :: calls, h => by
    obtain ⟨hcall, hcalls⟩ := Bool.and_eq_true_iff.mp h
    refine follows_bind (follows_run c call hcall) fun reply => ?_
    refine follows_bind (follows_note reply) fun _ => ?_
    exact follows_bind (follows_continueAfter _ reply) fun _ => follows_runAll c calls hcalls

end

theorem moves_play (c : Caller σ) (call : Call) (h : call.plain = true) (s : Session σ) :
    Moves s (call.play c s).2 :=
  follows_run c call h ⟨s, [], false⟩

end Call

/-! ### Schedules -/

/-- Whether no statement of the turn controls transactions. -/
def Turn.plain : Turn → Bool
  | .call c => c.plain
  | _ => true

namespace Schedule

/-- Turns of threads, one after another. -/
def turns (s : Schedule σ) (ts : List (Caller σ × Turn)) : Schedule σ :=
  ts.foldl (fun s t => (turn t.1 t.2 s).2) s

theorem moves_wake (engine : Engine σ) (mode : TransactionMode) (s : Schedule σ) :
    Moves s.session (wake engine mode s).2.session := by
  unfold wake
  split
  · exact Course.refl _
  · split
    · exact Course.refl _
    · exact Call.moves_play _ (.begin _) rfl s.session

theorem moves_turn (c : Caller σ) {t : Turn} (h : t.plain = true) (s : Schedule σ) :
    Moves s.session (turn c t s).2.session := by
  unfold turn
  split
  · exact Course.refl _
  · cases t with
    | call call =>
      have hplay := Call.moves_play c call h s.session
      exact Course.trans hplay
        (moves_wake c.engine c.defaultMode { s with session := (call.play c s.session).2 })
    | beginWaiting mode =>
      dsimp only
      split
      · exact Course.refl _
      · next r session _ hplay =>
        have hm := Call.moves_play c (.begin (some (mode.getD c.defaultMode))) rfl s.session
        rwa [hplay] at hm
    | close => exact c.follows_close s.session

/-- Whatever plain turns threads take, the session moves by plain actions. -/
theorem moves_turns (ts : List (Caller σ × Turn)) (h : ∀ t ∈ ts, t.2.plain = true)
    (s : Schedule σ) : Moves s.session (s.turns ts).session := by
  induction ts generalizing s with
  | nil => exact Course.refl _
  | cons t ts ih =>
    have hhead := moves_turn t.1 (h t (List.mem_cons_self ..)) s
    exact Course.trans hhead (ih (fun t' ht' => h t' (List.mem_cons_of_mem _ ht')) _)

end Schedule

end SqlMaps
