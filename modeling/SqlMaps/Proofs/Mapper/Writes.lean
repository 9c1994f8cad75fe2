import SqlMaps.Engine.Script
import SqlMaps.Mapper.Basic
import SqlMaps.Proofs.Session.Sending

/-! What the writes of a mapper send, and when they commit.

The statements of a write are known before anything is sent, or the write is refused
(`insertStatements`, `writeStatements`). A body `Performs` statements if it sends them in
order, and no more after one that fails; bodies are put together by `Performs.bind`. A
transaction around such a body is committed if and only if all went well
(`Caller.commitsIffOk_transaction`), and each write is one (`writes_commitIffOk`).

The text of a key query is the template's own: nobody asks what it starts with. One that
ends the transaction is the only way to a COMMIT behind which a write fails
(`insert_failsBehindCommit`). -/
namespace SqlMaps
open Attempt
variable {σ α β : Type}

namespace Entry

/-- How and what was sent. -/
def statement (e : Entry) : Channel × String :=
  (e.channel, e.sql)

/-- A COMMIT that has succeeded. -/
def Commits (e : Entry) : Prop :=
  e.sql = "COMMIT" ∧ e.succeeded = true

end Entry

namespace Caller
variable (c : Caller σ)

/-- The entry of a statement of this caller that succeeds. -/
def success (p : Channel × String) : Entry :=
  ⟨c.thread, p.1, p.2, true⟩

/-- In the transaction that its thread owns, which stays as it is, the computation sends the
statements one by one: all of them, and they succeed, if it succeeds itself. -/
def Performs (ps : List (Channel × String)) (x : SessionM σ α) : Prop :=
  ∀ ⦃s : Session σ⦄ ⦃t : Transaction⦄, s.transaction = some t → t.owner = c.thread →
    (x.run s).2.transaction = some t ∧
    ∃ es, (x.run s).2.log = s.log ++ es ∧ es.map Entry.statement <+: ps ∧
      ∀ a, (x.run s).1 = .ok a → es = ps.map c.success

variable {c}

theorem performs_settled (r : Except RunError α) : c.Performs [] (settled r) :=
  fun s _ ht _ => ⟨ht, [], (List.append_nil s.log).symm, List.prefix_rfl, fun _ _ => rfl⟩

theorem performs_pure (a : α) : c.Performs [] (pure a) :=
  performs_settled (.ok a)

/-- One statement. -/
theorem performs_send (channel : Channel) (sql : String) (run : σ → Except RunError α × σ) :
    c.Performs [(channel, sql)] (c.send channel sql run) := by
  intro s t ht _
  refine ⟨ht, [⟨c.thread, channel, sql, (run s.store).1.isOk⟩], rfl, List.prefix_rfl, ?_⟩
  intro a ha
  have hok : (run s.store).1 = .ok a := ha
  rw [hok]
  rfl

/-- A write in a transaction of its thread is its statement. -/
theorem performs_execute (sql : String) : c.Performs [(.execute, sql)] (c.execute sql) := by
  intro s t ht ho
  rw [c.run_execute_of_owner sql ht ho]
  exact performs_send .execute sql (c.engine.execute sql) ht ho

/-- One body behind another sends what that sends behind what the other sends. -/
theorem Performs.bind {ps qs : List (Channel × String)} {x : SessionM σ α}
    {f : α → SessionM σ β} (hx : c.Performs ps x) (hf : ∀ a, c.Performs qs (f a)) :
    c.Performs (ps ++ qs) (x >>= f) := by
  intro s t ht ho
  obtain ⟨hkept, es, hlog, hsent, hall⟩ := hx ht ho
  rw [run_bind]
  cases hr : x.run s with
  | mk r s' =>
    rw [hr] at hkept hlog hall
    cases r with
    | error e =>
      exact ⟨hkept, es, hlog, hsent.trans (List.prefix_append ..), fun a h => nomatch h⟩
    | ok a =>
      obtain rfl := hall a rfl
      obtain ⟨hkept', es', hlog', hsent', hall'⟩ := hf a hkept ho
      have hnames : (ps.map c.success).map Entry.statement = ps := by
        rw [List.map_map]
        exact List.map_id ps
      refine ⟨hkept', ps.map c.success ++ es', ?_, ?_, ?_⟩
      · rw [hlog', hlog, List.append_assoc]
      · rw [List.map_append, hnames]
        exact (List.prefix_append_right_inj ps).mpr hsent'
      · intro b hb
        rw [hall' b hb, List.map_append]

theorem Performs.discard {ps : List (Channel × String)} {x : SessionM σ α}
    (hx : c.Performs ps x) : c.Performs ps (discard x : SessionM σ Unit) :=
  List.append_nil ps ▸ hx.bind fun _ => performs_pure ()

/-! ### Committing what has succeeded -/

/-- If the end of a transaction commits, the transaction was marked, and its end succeeds. -/
theorem Closing.of_commits {store store' : σ} {marked : Bool} {r : Except RunError Outcome}
    {cs : List Entry} (h : c.Closing store marked r store' cs) {e : Entry} (he : e ∈ cs)
    (hcommits : e.Commits) : marked = true ∧ r = .ok .committed := by
  obtain ⟨hsql, hok⟩ := hcommits
  cases h with
  | committed _ => exact ⟨rfl, rfl⟩
  | commitFailed _ _ =>
    obtain rfl | rfl : e = _ ∨ e = _ := by simpa using he
    · cases hok
    · exact absurd hsql (by simp [entry])
  | rolledBack _ =>
    obtain rfl : e = _ := by simpa using he
    exact absurd hsql (by simp [entry])

/-- No way to begin is a way to commit. -/
theorem beginStatement_ne_commit (mode : TransactionMode) : mode.beginStatement ≠ "COMMIT" := by
  cases mode <;> decide

variable (c)

/-- The computation, while no transaction is open, either commits its statements in a
transaction of its own or fails. `planned` are its statements, or why there are none. -/
structure CommitsIffOk (planned : Except RunError (List (Channel × String)))
    (x : SessionM σ α) (s : Session σ) : Prop where
  /-- No transaction stays open. -/
  idle : (x.run s).2.transaction = none
  /-- Without statements nothing is sent. -/
  refused : ∀ e, planned = .error e → x.run s = (.error e, s)
  /-- Behind a success stand a BEGIN in the default mode, the statements and a COMMIT, which
  have all succeeded. -/
  committed : ∀ a, (x.run s).1 = .ok a → ∃ ps, planned = .ok ps ∧
    (x.run s).2.log = s.log ++ ((Channel.batch, c.defaultMode.beginStatement) ::
      (ps ++ [(Channel.batch, "COMMIT")])).map c.success
  /-- Behind a failure stands no COMMIT that has succeeded, unless the statements have a query
  that is one. -/
  undone : ∀ e, (x.run s).1 = .error e → ∃ es, (x.run s).2.log = s.log ++ es ∧
    ∀ entry ∈ es, entry.Commits →
      entry.channel = .query ∧ ∃ ps, planned = .ok ps ∧ (.query, "COMMIT") ∈ ps

variable {c} {s : Session σ} {ps : List (Channel × String)}
  {planned : Except RunError (List (Channel × String))}

/-- It makes no difference what is made of the result. -/
theorem CommitsIffOk.bind_pure {x : SessionM σ α} (h : c.CommitsIffOk planned x s) (f : α → β) :
    c.CommitsIffOk planned (x >>= fun a => pure (f a)) s := by
  have hrun := run_bind_pure x f s
  refine ⟨?_, fun e he => ?_, fun b hb => ?_, fun e he => ?_⟩
  · rw [hrun]
    exact h.idle
  · rw [hrun, h.refused e he]
    rfl
  · rw [hrun] at hb ⊢
    cases hr : (x.run s).1 with
    | error e =>
      rw [hr] at hb
      cases hb
    | ok a => exact h.committed a hr
  · rw [hrun] at he ⊢
    cases hr : (x.run s).1 with
    | error e' => exact h.undone e' hr
    | ok a =>
      rw [hr] at he
      cases he

/-- What has to succeed before there are statements is no part of the transaction. -/
theorem commitsIffOk_settled {r : Except RunError α} {f : α → SessionM σ β}
    {plan : α → Except RunError (List (Channel × String))} (hidle : s.transaction = none)
    (h : ∀ a, r = .ok a → c.CommitsIffOk (plan a) (f a) s) :
    c.CommitsIffOk (r >>= plan) (settled r >>= f) s := by
  cases r with
  | ok a =>
    obtain ⟨hclosed, hrefused, hcommitted, hundone⟩ := h a rfl
    exact ⟨hclosed, hrefused, hcommitted, hundone⟩
  | error e =>
    refine ⟨hidle, fun e' he => ?_, fun b hb => ?_, fun _ _ => ?_⟩
    · cases he
      rfl
    · cases hb
    · exact ⟨[], (List.append_nil s.log).symm, by simp⟩

/-- An outermost transaction around what performs statements commits if and only if it
succeeds. -/
theorem commitsIffOk_transaction {body : SessionM σ α} (hbody : c.Performs ps body)
    (hquery : ∀ p ∈ ps, p.2 = "COMMIT" → p.1 = .query) (hidle : s.transaction = none) :
    c.CommitsIffOk (.ok ps) (c.transaction c.defaultMode body) s := by
  have hkept : ∀ store, (body.run (c.begun c.defaultMode s store)).2.transaction =
      some ⟨c.thread, 0, false⟩ := fun store => (hbody rfl rfl).1
  obtain ⟨e, store, -, hrun⟩ | ⟨store, -, closed, store', cs, hclosing, hrun⟩ :=
    c.run_transaction_of_idle c.defaultMode hidle hkept
  · refine ⟨?_, fun _ h => (nomatch h), fun a ha => ?_, fun _ _ => ?_⟩
    · rw [hrun]
      exact hidle
    · rw [hrun] at ha
      cases ha
    · rw [hrun]
      exact ⟨_, rfl, by simp [Entry.Commits]⟩
  · obtain ⟨-, es, hlog, hsent, hall⟩ := hbody (s := c.begun c.defaultMode s store) rfl rfl
    generalize body.run (c.begun c.defaultMode s store) = inside at *
    obtain ⟨r, u⟩ := inside
    have hlog' : ((c.transaction c.defaultMode body).run s).2.log =
        s.log ++ (c.success (.batch, c.defaultMode.beginStatement) :: (es ++ cs)) := by
      rw [hrun]
      show u.log ++ cs = _
      rw [show u.log = _ from hlog]
      simp [begun, success]
    refine ⟨by rw [hrun], fun _ h => (nomatch h), fun a ha => ?_, fun e he => ⟨_, hlog', ?_⟩⟩
    · rw [hrun] at ha
      cases r with
      | error e => cases ha
      | ok b =>
        obtain rfl := hall b rfl
        cases hclosing with
        | commitFailed => cases ha
        | committed => exact ⟨ps, rfl, by rw [hlog', List.map_cons, List.map_append]; rfl⟩
    · intro entry hmem hcommits
      obtain rfl | hmem | hmem : entry = _ ∨ entry ∈ es ∨ entry ∈ cs := by simpa using hmem
      · exact absurd hcommits.1 (beginStatement_ne_commit _)
      · have hp : entry.statement ∈ ps := hsent.subset (List.mem_map_of_mem hmem)
        have hchannel : entry.channel = .query := hquery _ hp hcommits.1
        exact ⟨hchannel, ps, rfl, by rwa [Entry.statement, hchannel, hcommits.1] at hp⟩
      · -- An end that commits is one of a success.
        obtain ⟨hmarked, rfl⟩ := hclosing.of_commits hmem hcommits
        rw [hrun] at he
        cases r with
        | error e => cases hmarked
        | ok b => cases he

/-- A write of one statement is an outermost transaction around it. -/
theorem commitsIffOk_execute {sql : String} (hsql : sql ≠ "COMMIT")
    (hidle : s.transaction = none) :
    c.CommitsIffOk (.ok [(.execute, sql)]) (c.execute sql) s := by
  refine (commitsIffOk_transaction (performs_send _ _ _) ?_ hidle).bind_pure Prod.fst
  simpa using fun h => absurd h hsql

end Caller

namespace Mapper

/-- The statements of an insert, if it has any: its own, and its key query. -/
def insertStatements (m : Mapper σ) (id : String) (params : List Param) :
    Except RunError (List (Channel × String)) := do
  let query ← m.prepare id params inserts
  let key ← keyProperty query
  return (.execute, query.sql) ::
    key.toList.map fun (node, _) => (Channel.query, node.selectKeySql)

/-- The statement of a write of the kinds, if it has one. -/
def writeStatements (m : Mapper σ) (kinds : List Template.Kind) (id : String)
    (params : List Param) : Except RunError (List (Channel × String)) := do
  let query ← m.prepare id params kinds
  return [(.execute, query.sql)]

variable (m : Mapper σ) {s : Session σ}

/-- What has been prepared starts with a keyword of the kinds. -/
theorem check_of_prepare {id : String} {params : List Param} {kinds : List Template.Kind}
    {query : Template.CompiledQuery} (h : m.prepare id params kinds = .ok query) :
    Template.checkStatement query.sql kinds = .ok () := by
  rw [prepare] at h
  cases hcompiled : Template.compile m.source id params with
  | error e =>
    rw [hcompiled] at h
    cases h
  | ok compiled =>
    rw [hcompiled] at h
    change ((Template.checkStatement compiled.sql kinds).mapError RunError.compile >>= fun _ =>
      pure compiled) = .ok query at h
    cases hcheck : Template.checkStatement compiled.sql kinds with
    | error e =>
      rw [hcheck] at h
      cases h
    | ok _ =>
      rw [hcheck] at h
      cases h
      exact hcheck

/-- A write that is told by its keyword is no COMMIT. -/
theorem sql_ne_commit {id : String} {params : List Param} {kinds : List Template.Kind}
    {query : Template.CompiledQuery} (h : m.prepare id params kinds = .ok query)
    (hkinds : kinds ∈ [inserts, updates, deletes]) : query.sql ≠ "COMMIT" := by
  intro hsql
  have hcheck := m.check_of_prepare h
  rw [hsql] at hcheck
  have hrefused : ∀ kinds ∈ [inserts, updates, deletes],
      (Template.checkStatement "COMMIT" kinds).isOk = false := by decide
  have := hrefused kinds hkinds
  rw [hcheck] at this
  cases this

theorem commitsIffOk_write (kinds : List Template.Kind) (id : String) (params : List Param)
    (hkinds : kinds ∈ [inserts, updates, deletes]) (hidle : s.transaction = none) :
    m.caller.CommitsIffOk (m.writeStatements kinds id params) (m.write kinds id params) s :=
  Caller.commitsIffOk_settled hidle fun _ h =>
    Caller.commitsIffOk_execute (m.sql_ne_commit h hkinds) hidle

theorem commitsIffOk_insertKeyed (id : String) (params : List Param)
    (hidle : s.transaction = none) :
    m.caller.CommitsIffOk (m.insertStatements id params) (m.insertKeyed id params) s := by
  refine Caller.commitsIffOk_settled hidle fun query h => ?_
  have hsql : query.sql ≠ "COMMIT" := m.sql_ne_commit h (by simp)
  refine Caller.commitsIffOk_settled hidle fun key _ => ?_
  cases key with
  | none =>
    have hexecute := Caller.commitsIffOk_execute (c := m.caller) hsql hidle
    exact (hexecute.bind_pure fun _ => ()).bind_pure fun _ => none
  | some pair =>
    obtain ⟨node, property⟩ := pair
    have hbody : m.caller.Performs [(.execute, query.sql), (.query, node.selectKeySql)] (do
        discard (m.caller.execute query.sql)
        let rows ← m.caller.query node.selectKeySql
        settled (keyOf rows)) :=
      (Caller.performs_execute _).discard.bind fun _ =>
        (Caller.performs_send _ _ _).bind fun rows => Caller.performs_settled (keyOf rows)
    refine (Caller.commitsIffOk_transaction hbody ?_ hidle).bind_pure _
    simpa using fun hcommit => absurd hcommit hsql

/-- A write of a mapper commits if and only if it succeeds. Made while no transaction is open,
it leaves none open. It sends nothing if there is no statement, or no way to take the key; if it
succeeds, it has sent a BEGIN, its statements and a COMMIT, and nothing else; and if it fails,
no COMMIT has succeeded, other than a key query of the template that says COMMIT. -/
theorem writes_commitIffOk (id : String) (params : List Param) (hidle : s.transaction = none) :
    m.caller.CommitsIffOk (m.insertStatements id params) (m.insert id params) s ∧
    m.caller.CommitsIffOk (m.writeStatements updates id params) (m.update id params) s ∧
    m.caller.CommitsIffOk (m.writeStatements deletes id params) (m.delete id params) s ∧
    ∀ {β : Type} (bean : Bean β) (b : β),
      m.caller.CommitsIffOk (m.writeStatements updates id (bean.toParams b))
        (m.updateBean bean id b) s ∧
      m.caller.CommitsIffOk (m.writeStatements deletes id (bean.toParams b))
        (m.deleteBean bean id b) s := by
  have hupdate := fun params => m.commitsIffOk_write updates id params (by simp) hidle
  have hdelete := fun params => m.commitsIffOk_write deletes id params (by simp) hidle
  exact ⟨(m.commitsIffOk_insertKeyed id params hidle).bind_pure _, hupdate _, hdelete _,
    fun bean b => ⟨hupdate _, hdelete _⟩⟩

/-- A mapper with one insert, which has the key query. -/
def keyedBy (query : Markup.Forest) : Mapper (List Rule) where
  caller := ⟨Script.engine, .immediate, "main"⟩
  source := .ofForest
    (.element "insert" [("id", "add")]
      (.text "INSERT INTO t VALUES (1)" (.element "selectKey" [("keyProperty", "id")] query .nil))
      .nil)

theorem writes_commitIffOk_keyed :
    let m := keyedBy .nil
    let key : Rule :=
      { Rule.fallback with channel := some .query, rows := ⟨["id"], [[.integer 7]]⟩ }
    let p := (m.insert "add" []).run (.start [key])
    (Session.start [key]).transaction = none ∧ p.2.transaction = none ∧
      p.1.toOption = some (some (.integer 7)) ∧
      p.2.log.map (fun e => (e.statement, e.succeeded)) =
        [((.batch, "BEGIN IMMEDIATE"), true), ((.execute, "INSERT INTO t VALUES (1)"), true),
          ((.query, "SELECT last_insert_rowid()"), true), ((.batch, "COMMIT"), true)] := by
  intro m key p
  have hidle := (writes_commitIffOk m "add" [] (s := .start [key]) rfl).1.idle
  exact ⟨rfl, hidle, by decide +kernel, by decide +kernel⟩

/-- Nobody asks whether a key query is a query. Where it is a COMMIT, the engine has no
transaction left to commit: the insert fails, and what it inserted stays. -/
theorem insert_failsBehindCommit :
    let m := keyedBy (.text "COMMIT" .nil)
    let gone (sql : String) : Rule :=
      { Rule.fallback with
          channel := some .batch, sql := some sql,
          failure := some (.database "no transaction is active") }
    let p := (m.insert "add" []).run (.start [gone "COMMIT", gone "ROLLBACK"])
    p.1.isOk = false ∧
      p.2.log.map (fun e => (e.statement, e.succeeded)) =
        [((.batch, "BEGIN IMMEDIATE"), true), ((.execute, "INSERT INTO t VALUES (1)"), true),
          ((.query, "COMMIT"), true), ((.batch, "COMMIT"), false),
          ((.batch, "ROLLBACK"), false)] := by
  decide +kernel

end Mapper

end SqlMaps
