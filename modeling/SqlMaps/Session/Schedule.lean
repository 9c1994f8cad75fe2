import SqlMaps.Session.Call

/-! Threads that take turns on a session.

A thread that begins while another owns the transaction waits. When the owner ends the
transaction the waiting thread begins at once, before anyone else's turn. -/
namespace SqlMaps

/-- A turn of a thread. -/
inductive Turn where
  | call (call : Call)
  /-- Begins, and waits if another thread owns the transaction. -/
  | beginWaiting (mode : Option TransactionMode)
  | close

/-- A thread that waits to begin a transaction. -/
structure Waiter where
  thread : Thread
  mode : TransactionMode
  deriving DecidableEq

/-- A session and the threads that wait for it. -/
structure Schedule (σ : Type) where
  session : Session σ
  waiting : List Waiter
  /-- Whether the session has been closed. -/
  closed : Bool

/-- What came of a turn. -/
inductive TurnResult where
  | replied (reply : Reply)
  | waiting
  | closed (result : Except RunError Unit)
  /-- The session had been closed before. -/
  | gone

/-- A turn's result, and the answer of a thread that it let begin. -/
structure TurnReport where
  result : TurnResult
  woken : Option (Thread × Reply)

namespace Schedule

/-- A session that nobody waits for. -/
def start (store : σ) : Schedule σ := ⟨.start store, [], false⟩

/-- Lets the first thread that waits begin, if no transaction is open. -/
def wake (engine : Engine σ) (defaultMode : TransactionMode) (s : Schedule σ) :
    Option (Thread × Reply) × Schedule σ :=
  match s.waiting with
  | [] => (none, s)
  | w :: rest =>
    if s.session.inTransaction then (none, s)
    else
      let caller : Caller σ := ⟨engine, defaultMode, w.thread⟩
      let (reply, session) := (Call.begin (some w.mode)).play caller s.session
      (some (w.thread, reply), { s with session, waiting := rest })

/-- Takes a turn. -/
def turn (c : Caller σ) (t : Turn) (s : Schedule σ) : TurnReport × Schedule σ :=
  if s.closed then (⟨.gone, none⟩, s)
  else match t with
    | .call call =>
      let (reply, session) := call.play c s.session
      let (woken, s) := wake c.engine c.defaultMode { s with session }
      (⟨.replied reply, woken⟩, s)
    | .beginWaiting mode =>
      let mode := mode.getD c.defaultMode
      match (Call.begin (some mode)).play c s.session with
      | (.failed .busy, _) => (⟨.waiting, none⟩, { s with waiting := s.waiting ++ [⟨c.thread, mode⟩] })
      | (reply, session) => (⟨.replied reply, none⟩, { s with session })
    | .close =>
      let (result, session) := c.close.run s.session
      (⟨.closed result, none⟩, { s with session, closed := true })

end Schedule

end SqlMaps
