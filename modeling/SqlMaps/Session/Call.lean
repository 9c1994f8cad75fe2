import SqlMaps.Session.Basic

/-! Programs of session calls.

A transaction runs further calls inside it. A call that fails there is left at that,
unless it `must` succeed: then its error ends the body, and with it the transaction.
A crash ends everything at once and leaves the transaction as it is. -/
namespace SqlMaps

/-- A call of a session. -/
inductive Call where
  /-- Begins in a mode, or in the session's own. -/
  | begin (mode : Option TransactionMode)
  | tryBegin (mode : TransactionMode)
  | setSuccessful
  | finish
  | execute (sql : String)
  | executeRaw (sql : String)
  | query (sql : String)
  | userVersion
  | setUserVersion (version : Int64)
  | optimize
  /-- Runs calls in a transaction, and fails in the end if an error is given. -/
  | transaction (mode : TransactionMode) (body : List Call) (failure : Option RunError)
  | must (call : Call)
  | crash
  deriving Inhabited

/-- The answer of a call. -/
inductive Reply where
  | done
  | flag (b : Bool)
  | count (n : Nat)
  | version (n : Int64)
  | outcome (outcome : Outcome)
  | rows (rows : RowSet)
  /-- The answers inside a transaction, and how that ended. -/
  | transaction (inner : List Reply) (ending : Except RunError Outcome)
  | failed (error : RunError)
  | crashed

/-- A program that is being run. -/
structure Play (σ : Type) where
  session : Session σ
  /-- The answers so far inside the innermost transaction call. -/
  replies : List Reply
  crashed : Bool

/-- A computation in a program. -/
abbrev PlayM (σ : Type) := Attempt (Play σ)

namespace Call

/-- Whether the failure of the call ends the body it stands in. -/
def mustSucceed : Call → Bool
  | .must _ => true
  | _ => false

/-- Runs a computation of the session. -/
def onSession (x : SessionM σ α) : PlayM σ α :=
  ExceptT.mk fun p =>
    let (result, session) := x.run p.session
    (result, { p with session })

/-- Notes an answer. -/
def note (reply : Reply) : PlayM σ Unit :=
  modify fun p => { p with replies := p.replies ++ [reply] }

/-- The answer made of a computation's result. -/
def replying (ofResult : α → Reply) (x : SessionM σ α) : PlayM σ Reply := do
  match ← onSession (settle x) with
  | .ok a => return ofResult a
  | .error e => return .failed e

/-- Ends a body after a crash, or after a failure that counts. -/
def continueAfter (must : Bool) (reply : Reply) : PlayM σ Unit := do
  if (← get).crashed then throw .busy
  match reply with
  | .failed e => if must then throw e
  | _ => return

/-- Runs a body in a transaction, with the answers inside it noted apart. -/
def inTransaction (c : Caller σ) (mode : TransactionMode) (body : PlayM σ Unit) :
    PlayM σ Reply := do
  let outer := (← get).replies
  modify fun p => { p with replies := [] }
  let leave : PlayM σ Outcome := do
    if (← get).crashed then return .nested else onSession c.finish
  let ending ← settle (bracket (onSession (c.begin mode)) (onSession c.setSuccessful) leave body)
  let inner := (← get).replies
  modify fun p => { p with replies := outer }
  if (← get).crashed then return .crashed
  return .transaction inner (ending.map Prod.snd)

mutual

/-- Runs a call. -/
def run (c : Caller σ) : Call → PlayM σ Reply
  | .begin mode => replying (fun _ => .done) (c.begin (mode.getD c.defaultMode))
  | .tryBegin mode => replying .flag (c.acquire mode)
  | .setSuccessful => replying (fun _ => .done) c.setSuccessful
  | .finish => replying .outcome c.finish
  | .execute sql => replying .count (c.execute sql)
  | .executeRaw sql => replying (fun _ => .done) (c.batch sql)
  | .query sql => replying .rows (c.query sql)
  | .userVersion => replying .version c.userVersion
  | .setUserVersion version => replying (fun _ => .done) (c.setUserVersion version)
  | .optimize => replying (fun _ => .done) c.optimize
  | .transaction mode body failure =>
    inTransaction c mode do
      runAll c body
      match failure with
      | some e => throw e
      | none => return
  | .must call => run c call
  | .crash => do
    modify fun p => { p with crashed := true }
    return .crashed

/-- Runs the calls of a body one after another. -/
def runAll (c : Caller σ) : List Call → PlayM σ Unit
  | [] => return
  | call :: calls => do
    let reply ← run c call
    note reply
    continueAfter call.mustSucceed reply
    runAll c calls

end

/-- Runs a call on a session. -/
def play (c : Caller σ) (call : Call) (s : Session σ) : Reply × Session σ :=
  let (result, p) := (run c call).run ⟨s, [], false⟩
  (match result with
    | .ok reply => reply
    | .error e => .failed e, p.session)

end Call

end SqlMaps
