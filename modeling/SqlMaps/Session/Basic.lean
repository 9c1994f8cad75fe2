import SqlMaps.Engine.Basic
import SqlMaps.Sql.Command

/-! Sessions: one transaction at a time, owned by one thread, over one engine.

The thread that opens the transaction owns it and may open further levels inside it;
only the outermost level talks to the engine. A level is closed by `finish`, and the
outermost one then commits if the transaction was marked successful while it was the
only level open, and rolls back otherwise. Other threads find the session busy until
then.

A session keeps a log of the statements sent. What a call has done to the session
stays done when the call fails. -/
namespace SqlMaps

/-- A thread that uses a session. -/
abbrev Thread := String

/-- A statement that was sent. -/
structure Entry where
  thread : Thread
  channel : Channel
  sql : String
  succeeded : Bool
  deriving DecidableEq

/-- An open transaction. -/
structure Transaction where
  owner : Thread
  /-- How many levels are open inside the outermost one. -/
  inner : Nat
  /-- Whether it is to be committed. -/
  successful : Bool
  deriving DecidableEq

/-- How a level was closed. -/
inductive Outcome where
  /-- An outer level is still open. -/
  | nested
  | committed
  | rolledBack
  deriving DecidableEq

/-- A session over a database in the state `σ`. -/
structure Session (σ : Type) where
  store : σ
  transaction : Option Transaction
  /-- The statements sent, in order. -/
  log : List Entry

namespace Session

/-- A session without a transaction. -/
def start (store : σ) : Session σ := ⟨store, none, []⟩

/-- How many levels are open. -/
def depth (s : Session σ) : Nat :=
  s.transaction.elim 0 fun t => t.inner + 1

/-- The thread that owns the open transaction. -/
def owner? (s : Session σ) : Option Thread :=
  s.transaction.map Transaction.owner

/-- Whether the open transaction is to be committed. -/
def successful (s : Session σ) : Bool :=
  s.transaction.any Transaction.successful

/-- Whether a transaction is open. -/
def inTransaction (s : Session σ) : Bool :=
  s.transaction.isSome

end Session

/-- A computation on a state that may fail; the state is kept when it does. -/
abbrev Attempt (σ : Type) := ExceptT RunError (StateM σ)

/-- A computation on a session. -/
abbrev SessionM (σ : Type) := Attempt (Session σ)

/-- Runs a computation and goes on with its result when it fails. -/
def settle (x : Attempt σ α) : Attempt σ (Except RunError α) :=
  ExceptT.lift x.run

/-- A result, or its failure. -/
def settled (r : Except RunError α) : Attempt σ α :=
  ExceptT.mk (pure r)

/-- Runs a body between an entrance and an exit. After the entrance the exit is taken
whatever the body does; the mark is made only behind a body that succeeds, and the
failure of the body counts before that of the exit. -/
def bracket (enter mark : Attempt σ Unit) (leave : Attempt σ β) (body : Attempt σ α) :
    Attempt σ (α × β) := do
  enter
  let result ← settle do
    let a ← body
    mark
    return a
  let outcome ← settle leave
  return (← settled result, ← settled outcome)

/-- A thread that calls a session. -/
structure Caller (σ : Type) where
  engine : Engine σ
  /-- The mode of the transactions that the session begins on its own. -/
  defaultMode : TransactionMode
  thread : Thread

namespace Caller

/-- Sends a statement, and enters it in the log. -/
def send (c : Caller σ) (channel : Channel) (sql : String) (run : σ → Except RunError α × σ) :
    SessionM σ α :=
  ExceptT.mk fun s =>
    let (result, store) := run s.store
    (result, { s with store, log := s.log ++ [⟨c.thread, channel, sql, result.isOk⟩] })

/-- Sends statements that return nothing. -/
def batch (c : Caller σ) (sql : String) : SessionM σ Unit :=
  c.send .batch sql (c.engine.batch sql)

/-- Sends one statement, for the number of rows it changes. -/
def change (c : Caller σ) (sql : String) : SessionM σ Nat :=
  c.send .execute sql (c.engine.execute sql)

/-- Sends a query. -/
def query (c : Caller σ) (sql : String) : SessionM σ RowSet :=
  c.send .query sql (c.engine.query sql)

/-- Sets the open transaction. -/
def setTransaction (t : Option Transaction) : SessionM σ Unit :=
  modify fun s => { s with transaction := t }

/-- Begins the transaction, or a further level of the one this thread owns. The answer
is no when another thread owns it; nothing has changed then. -/
def acquire (c : Caller σ) (mode : TransactionMode) : SessionM σ Bool := do
  match (← get).transaction with
  | none =>
    c.batch (Sql.Command.begin mode).text
    setTransaction (some ⟨c.thread, 0, false⟩)
    return true
  | some t =>
    if t.owner = c.thread then
      setTransaction (some { t with inner := t.inner + 1 })
      return true
    else return false

/-- Begins the transaction, or a further level of it. -/
def begin (c : Caller σ) (mode : TransactionMode) : SessionM σ Unit := do
  unless ← c.acquire mode do throw .busy

/-- The transaction that this thread owns. -/
def owned (c : Caller σ) : SessionM σ Transaction := do
  match (← get).transaction with
  | none => throw .transactionNotOpen
  | some t => if t.owner = c.thread then return t else throw .transactionNotOwned

/-- Marks the transaction to be committed. The mark is made only while the outermost
level is the only one. -/
def setSuccessful (c : Caller σ) : SessionM σ Unit := do
  let t ← c.owned
  if t.inner = 0 then setTransaction (some { t with successful := true })

/-- Commits; what cannot be committed is rolled back, and its error remains. -/
def commit (c : Caller σ) : SessionM σ Outcome := do
  match ← settle (c.batch Sql.Command.commit.text) with
  | .ok () => return .committed
  | .error e =>
    let _ ← settle (c.batch Sql.Command.rollback.text)
    throw e

/-- Rolls back. -/
def rollback (c : Caller σ) : SessionM σ Outcome := do
  c.batch Sql.Command.rollback.text
  return .rolledBack

/-- Closes a level; with the outermost one the transaction ends. -/
def finish (c : Caller σ) : SessionM σ Outcome := do
  let t ← c.owned
  match t.inner with
  | inner + 1 =>
    setTransaction (some { t with inner })
    return .nested
  | 0 =>
    setTransaction none
    if t.successful then c.commit else c.rollback

/-- Runs a body inside a level of its own, which is marked successful if the body
succeeds. -/
def transaction (c : Caller σ) (mode : TransactionMode) (body : SessionM σ α) :
    SessionM σ (α × Outcome) :=
  bracket (c.begin mode) c.setSuccessful c.finish body

/-- Runs one statement that writes, in a transaction. -/
def execute (c : Caller σ) (sql : String) : SessionM σ Nat := do
  let (changed, _) ← c.transaction c.defaultMode (c.change sql)
  return changed

/-- The version that the database bears. -/
def userVersion (c : Caller σ) : SessionM σ Int64 := do
  let rows ← c.query Sql.Command.readVersion.text
  match rows.record? 0 with
  | none => throw (.resultCount .one)
  | some r => settled (r.integer (.at 0))

/-- Sets the version that the database bears. -/
def setUserVersion (c : Caller σ) (version : Int64) : SessionM σ Unit :=
  c.batch (Sql.Command.setVersion version).text

/-- Rebuilds the database without its gaps; not inside a transaction. -/
def optimize (c : Caller σ) : SessionM σ Unit := do
  if (← get).inTransaction then throw (.migration .optimizeInside)
  c.batch Sql.Command.vacuum.text

/-- Rolls back what is still open. -/
def close (c : Caller σ) : SessionM σ Unit := do
  if (← get).inTransaction then
    setTransaction none
    discard c.rollback

end Caller

end SqlMaps
