import SqlMaps.Proofs.Migration.Permitted
import SqlMaps.Proofs.Migration.Tally

/-! Two migrations side by side.

One of them asks for row ids where the other does not. As long as a statement that both send is
answered alike, `Parallel` computations send the same statements but for those questions, come to
the same result, and stand level again. This goes from the parts of a computation to the whole
(`parallel_bind`): statements that are answered alike keep both at the same place in what they
send, so that the next one is the same for both. -/
namespace SqlMaps
open Attempt
variable {σ α β : Type}

namespace Exchange

/-- Whether the statement asks for row ids. -/
def asksRowIds (x : Exchange) : Bool :=
  Sql.opensWith "SELECT ROWID FROM " x.sql

@[simp] theorem asksRowIds_text (channel : Channel) (command : Sql.Command) (answer : Answer) :
    asksRowIds ⟨channel, command.text, answer⟩ =
      decide (command.opening = "SELECT ROWID FROM ") :=
  Sql.opensWith_text (by simp [Sql.copyingStarts]) command

theorem asksRowIds_of_aside {x : Exchange} (h : Sql.Aside x.sql) : x.asksRowIds = false :=
  h _ (by simp [Sql.copyingStarts])

/-- A query for the rows of a table is answered, if with rows, with the columns asked for, and with
full rows that begin with an id. -/
def AnswersCopy (x : Exchange) : Prop :=
  ∀ table columns rows, columns ≠ [] → x.sql = (Sql.Command.copyRows table columns).text →
    x.answer = .rows rows → rows.columns = Sql.rowIdAlias :: columns ∧ rows.Rectangular ∧
      ∀ row ∈ rows.rows, ∃ id, row.head? = some (.integer id)

theorem answersCopy_of_other {x : Exchange} (h : x.isCopy = false) : x.AnswersCopy := by
  intro table columns rows _ hsql _
  rw [isCopy, hsql, Sql.opensWith_text (by simp [Sql.copyingStarts])] at h
  simp [Sql.Command.opening] at h

/-- A query for rows is told by its text. -/
theorem answersCopy_copyRows {channel : Channel} {table : String} {columns : List String}
    {rows : RowSet} (hcolumns : columns ≠ [])
    (h : rows.columns = Sql.rowIdAlias :: columns ∧ rows.Rectangular ∧
      ∀ row ∈ rows.rows, ∃ id, row.head? = some (.integer id)) :
    AnswersCopy ⟨channel, (Sql.Command.copyRows table columns).text, .rows rows⟩ := by
  intro table' columns' rows' hcolumns' hsql hanswer
  have hread := congrArg Sql.Command.read? hsql
  rw [Sql.read?_copyRows hcolumns, Sql.read?_copyRows hcolumns'] at hread
  cases hread
  cases hanswer
  exact h

/-- The answer has no rows. -/
def FindsNothing (x : Exchange) : Prop :=
  ∃ rows, x.answer = .rows rows ∧ rows.rows = []

end Exchange

/-- Statements that are the same, at the same place, are answered alike. -/
def AnsweredAlike (xs ys : List Exchange) : Prop :=
  ∀ (i : Nat) (x y : Exchange), xs[i]? = some x → ys[i]? = some y → x.channel = y.channel →
    x.sql = y.sql → x.answer = y.answer

/-- All but the questions for row ids. -/
def withoutRowIds (xs : List Exchange) : List Exchange :=
  xs.filter fun x => !x.asksRowIds

@[simp] theorem withoutRowIds_append (xs ys : List Exchange) :
    withoutRowIds (xs ++ ys) = withoutRowIds xs ++ withoutRowIds ys :=
  List.filter_append ..

theorem withoutRowIds_eq_self {xs : List Exchange} (h : ∀ x ∈ xs, x.asksRowIds = false) :
    withoutRowIds xs = xs :=
  List.filter_eq_self.2 fun x hx => by simp [h x hx]

namespace AnsweredAlike
variable {xs xs' ys ys' : List Exchange}

theorem refl (xs : List Exchange) : AnsweredAlike xs xs := by
  intro i x y hx hy _ _
  obtain rfl : x = y := Option.some.inj (hx.symm.trans hy)
  rfl

theorem left (h : AnsweredAlike (xs ++ xs') (ys ++ ys')) : AnsweredAlike xs ys := fun i x y hx hy =>
  h i x y (List.getElem?_append_left (List.getElem?_eq_some_iff.1 hx).1 ▸ hx)
    (List.getElem?_append_left (List.getElem?_eq_some_iff.1 hy).1 ▸ hy)

theorem right (h : AnsweredAlike (xs ++ xs') (ys ++ ys')) (hlength : xs.length = ys.length) :
    AnsweredAlike xs' ys' := by
  intro i x y hx hy
  refine h (xs.length + i) x y ?_ ?_
  · rwa [List.getElem?_append_right (Nat.le_add_right ..), Nat.add_sub_cancel_left]
  · rwa [hlength, List.getElem?_append_right (Nat.le_add_right ..), Nat.add_sub_cancel_left]

end AnsweredAlike

namespace Migrator
variable {m : Migrator σ} {empty : String → Prop}

/-! ### Level migrations -/

/-- Two migrations at the same point, but for the state of the new database. -/
structure Level (s t : Migration σ) : Prop where
  old : s.old = t.old
  transaction : s.new.transaction = t.new.transaction
  report : s.report = t.report

theorem Level.refl (s : Migration σ) : Level s s :=
  ⟨rfl, rfl, rfl⟩

/-- What both engines are relied on for: copied rows are whole, the tables taken for empty have no
row ids, and both migrations are answered alike. -/
structure Reliable (empty : String → Prop) (os xs ys : List Exchange) : Prop where
  copies : ∀ x ∈ os, x.AnswersCopy
  ids : ∀ table, empty table → ∀ x ∈ ys, x.sql = (Sql.Command.rowIds table).text → x.FindsNothing
  alike : AnsweredAlike xs (withoutRowIds ys)

namespace Reliable
variable {os os' xs xs' ys ys' : List Exchange}

theorem left (h : Reliable empty (os ++ os') (xs ++ xs') (ys ++ ys')) :
    Reliable empty os xs ys where
  copies x hx := h.copies x (List.mem_append_left _ hx)
  ids table htable x hx := h.ids table htable x (List.mem_append_left _ hx)
  alike := (withoutRowIds_append ys ys' ▸ h.alike).left

theorem right (h : Reliable empty (os ++ os') (xs ++ xs') (ys ++ ys'))
    (heq : xs = withoutRowIds ys) : Reliable empty os' xs' ys' where
  copies x hx := h.copies x (List.mem_append_right _ hx)
  ids table htable x hx := h.ids table htable x (List.mem_append_right _ hx)
  alike := (withoutRowIds_append ys ys' ▸ h.alike).right (by rw [heq])

end Reliable

/-- A migration that has come along by sending statements to both databases. -/
structure Speaks (m : Migrator σ) (s t : Migration σ) : Prop where
  old : m.old.Talks s.old t.old
  new : m.new.Talks s.new t.new

instance (m : Migrator σ) : Course m.Speaks where
  refl s := ⟨Course.refl s.old, Course.refl s.new⟩
  trans h h' := ⟨Course.trans h.old h'.old, Course.trans h.new h'.new⟩

/-- From level migrations on, both computations send the same statements but for questions for row
ids, and leave the migrations level with the same result, if the engines can be relied on. -/
structure Parallel (m : Migrator σ) (empty : String → Prop) (x y : MigrationM σ α) : Prop where
  left : Follows m.Speaks x
  right : Follows m.Speaks y
  level : ∀ {s t os xs ys}, Level s t → m.old.Heard s.old os (x.run s).2.old →
    m.new.Heard s.new xs (x.run s).2.new → m.new.Heard t.new ys (y.run t).2.new →
    Reliable empty os xs ys →
      (x.run s).1 = (y.run t).1 ∧ Level (x.run s).2 (y.run t).2 ∧ xs = withoutRowIds ys

section Parallel
variable {x y : MigrationM σ α}

/-- Computations that send nothing. -/
theorem parallel_of_kept (hx : ∀ s, (x.run s).2.old = s.old ∧ (x.run s).2.new = s.new)
    (hy : ∀ s, (y.run s).2.old = s.old ∧ (y.run s).2.new = s.new)
    (h : ∀ {s t}, Level s t → (x.run s).1 = (y.run t).1 ∧
      (x.run s).2.report = (y.run t).2.report) : m.Parallel empty x y := by
  have hspeaks : ∀ {z : MigrationM σ α},
      (∀ s, (z.run s).2.old = s.old ∧ (z.run s).2.new = s.new) → Follows m.Speaks z :=
    fun hz s => ⟨(hz s).1 ▸ Course.refl _, (hz s).2 ▸ Course.refl _⟩
  refine ⟨hspeaks hx, hspeaks hy, fun {s t os xs ys} hlevel _ hxs hys _ => ?_⟩
  obtain ⟨hresult, hreport⟩ := h hlevel
  rw [(hx s).2] at hxs
  rw [(hy t).2] at hys
  refine ⟨hresult, ⟨?_, ?_, hreport⟩, by rw [hxs.eq_nil, hys.eq_nil]; rfl⟩
  · rw [(hx s).1, (hy t).1, hlevel.old]
  · rw [(hx s).2, (hy t).2, hlevel.transaction]

theorem parallel_pure (a : α) : m.Parallel empty (pure a : MigrationM σ α) (pure a) :=
  parallel_of_kept (fun _ => ⟨rfl, rfl⟩) (fun _ => ⟨rfl, rfl⟩) fun h => ⟨rfl, h.report⟩

theorem parallel_settled (r : Except RunError α) :
    m.Parallel empty (settled r : MigrationM σ α) (settled r) :=
  parallel_of_kept (fun _ => ⟨rfl, rfl⟩) (fun _ => ⟨rfl, rfl⟩) fun h => ⟨rfl, h.report⟩

theorem parallel_account (f : MigrationReport → MigrationReport) :
    m.Parallel empty (account f) (account f) :=
  parallel_of_kept (fun _ => ⟨rfl, rfl⟩) (fun _ => ⟨rfl, rfl⟩) fun h =>
    ⟨rfl, congrArg f h.report⟩

theorem parallel_settle (h : m.Parallel empty x y) :
    m.Parallel empty (settle x) (settle y) where
  left := follows_settle h.left
  right := follows_settle h.right
  level hlevel hos hxs hys hreliable :=
    let ⟨hresult, hleft⟩ := h.level hlevel hos hxs hys hreliable
    ⟨congrArg Except.ok hresult, hleft⟩

/-- What is found out by the first computation may be used for the second. -/
theorem parallel_bind_of {P : α → Prop} {f g : α → MigrationM σ β} (hx : m.Parallel empty x y)
    (hP : ∀ {s os a}, m.old.Heard s.old os (x.run s).2.old → (∀ o ∈ os, o.AnswersCopy) →
      (x.run s).1 = .ok a → P a)
    (hleft : ∀ a, Follows m.Speaks (f a)) (hright : ∀ a, Follows m.Speaks (g a))
    (hf : ∀ a, P a → m.Parallel empty (f a) (g a)) : m.Parallel empty (x >>= f) (y >>= g) where
  left := follows_bind hx.left hleft
  right := follows_bind hx.right hright
  level := by
    intro s t os xs ys hlevel hos hxs hys hreliable
    obtain ⟨⟨os₁, hos₁⟩, xs₁, hxs₁⟩ := hx.left s
    obtain ⟨-, ys₁, hys₁⟩ := hx.right t
    obtain ⟨⟨os₂, hos₂⟩, xs₂, hxs₂⟩ := follows_rest hleft x s
    obtain ⟨-, ys₂, hys₂⟩ := follows_rest hright y t
    obtain rfl := hos.unique (hos₁.trans hos₂)
    obtain rfl := hxs.unique (hxs₁.trans hxs₂)
    obtain rfl := hys.unique (hys₁.trans hys₂)
    obtain ⟨hresult, hlevel₁, heq⟩ := hx.level hlevel hos₁ hxs₁ hys₁ hreliable.left
    have hreliable₂ := hreliable.right heq
    have hcopies := hreliable.left.copies
    rw [withoutRowIds_append, ← heq]
    clear hos hxs hys hxs₁ hys₁
    rw [run_bind] at hos₂ hxs₂ ⊢
    rw [run_bind] at hys₂ ⊢
    have hPa : ∀ a, (x.run s).1 = .ok a → P a := fun a => hP hos₁ hcopies
    cases hrun : x.run s with
    | mk r s₁ =>
      cases hrun' : y.run t with
      | mk r' t₁ =>
        rw [hrun] at hresult hlevel₁ hos₂ hxs₂ hPa
        rw [hrun'] at hresult hlevel₁ hys₂
        obtain rfl : r = r' := hresult
        cases r with
        | error e =>
          obtain rfl := hxs₂.eq_nil
          obtain rfl := hys₂.eq_nil
          exact ⟨rfl, hlevel₁, rfl⟩
        | ok a =>
          obtain ⟨hresult₂, hlevel₂, rfl⟩ :=
            (hf a (hPa a rfl)).level hlevel₁ hos₂ hxs₂ hys₂ hreliable₂
          exact ⟨hresult₂, hlevel₂, rfl⟩

theorem parallel_bind {f g : α → MigrationM σ β} (hx : m.Parallel empty x y)
    (hf : ∀ a, m.Parallel empty (f a) (g a)) : m.Parallel empty (x >>= f) (y >>= g) :=
  parallel_bind_of (P := fun _ => True) hx (fun _ _ _ => trivial) (fun a => (hf a).left)
    (fun a => (hf a).right) fun a _ => hf a

/-- A bracket goes side by side if its parts do. -/
theorem parallel_bracket {enter mark enter' mark' : MigrationM σ Unit}
    {leave leave' : MigrationM σ β} {body body' : MigrationM σ α} (henter : m.Parallel empty enter enter')
    (hmark : m.Parallel empty mark mark') (hleave : m.Parallel empty leave leave')
    (hbody : m.Parallel empty body body') :
    m.Parallel empty (bracket enter mark leave body) (bracket enter' mark' leave' body') := by
  have hinside : m.Parallel empty (do let a ← body; mark; return a : MigrationM σ α)
      (do let a ← body'; mark'; return a) :=
    parallel_bind hbody fun a => parallel_bind hmark fun _ => parallel_pure a
  refine parallel_bind henter fun _ => parallel_bind (parallel_settle hinside) fun r => ?_
  refine parallel_bind (parallel_settle hleave) fun o => ?_
  exact parallel_bind (parallel_settled r) fun a => parallel_bind (parallel_settled o) fun b =>
    parallel_pure (a, b)

end Parallel

/-! ### One computation on both new databases -/

theorem onNew_bind (x : SessionM σ α) (f : α → SessionM σ β) :
    onNew (x >>= f) = onNew x >>= fun a => onNew (f a) := by
  funext y
  show (onNew (x >>= f)).run y = (onNew x >>= fun a => onNew (f a)).run y
  rw [run_bind]
  cases hx : x.run y.new with
  | mk r s =>
    have hbind := run_bind x f y.new
    rw [hx] at hbind
    rw [run_onNew hx]
    cases r with
    | error e => exact run_onNew hbind
    | ok a => exact run_onNew (hbind.trans rfl)

theorem onNew_settle (x : SessionM σ α) : onNew (settle x) = settle (onNew x) := rfl

section Steady
variable {x : SessionM σ α}

/-- The computation on the new database goes side by side with itself. -/
abbrev Steady (m : Migrator σ) (empty : String → Prop) (x : SessionM σ α) : Prop :=
  m.Parallel empty (onNew x) (onNew x)

/-- A statement is answered alike, and so the results are the same. -/
theorem steady_send {channel : Channel} {sql : String} {answer : α → Answer}
    (hanswer : Function.Injective (Answer.ofResult answer))
    (hheard : ∀ s, m.new.Heard s [⟨channel, sql, .ofResult answer (x.run s).1⟩] (x.run s).2)
    (hkept : ∀ s, (x.run s).2.transaction = s.transaction)
    (hsql : Sql.opensWith "SELECT ROWID FROM " sql = false) : m.Steady empty x := by
  have hspeaks : Follows m.Speaks (onNew x) := fun s => ⟨Course.refl _, ⟨_, hheard s.new⟩⟩
  refine ⟨hspeaks, hspeaks, fun {s t os xs ys} hlevel _ hxs hys hreliable => ?_⟩
  obtain rfl := hxs.unique (hheard s.new)
  obtain rfl := hys.unique (hheard t.new)
  have hsame : withoutRowIds [⟨channel, sql, .ofResult answer (x.run t.new).1⟩] =
      [⟨channel, sql, .ofResult answer (x.run t.new).1⟩] :=
    withoutRowIds_eq_self (List.forall_mem_singleton.2 hsql)
  have halike := hreliable.alike
  rw [hsame] at halike
  have hresult : (x.run s.new).1 = (x.run t.new).1 := hanswer (halike 0 _ _ rfl rfl rfl rfl)
  refine ⟨hresult, ⟨hlevel.old, ?_, hlevel.report⟩, ?_⟩
  · exact (hkept s.new).trans (hlevel.transaction.trans (hkept t.new).symm)
  · rw [hsame, hresult]

theorem steady_pure (a : α) : m.Steady empty (pure a : SessionM σ α) := parallel_pure a

theorem steady_throw (e : RunError) : m.Steady empty (throw e : SessionM σ α) :=
  parallel_settled (.error e)

theorem steady_settle (h : m.Steady empty x) : m.Steady empty (settle x) :=
  parallel_settle h

theorem steady_bind {f : α → SessionM σ β} (hx : m.Steady empty x)
    (hf : ∀ a, m.Steady empty (f a)) : m.Steady empty (x >>= f) := by
  rw [Steady, onNew_bind]
  exact parallel_bind hx hf

/-- A bracket is steady if its parts are. -/
theorem steady_bracket {enter mark : SessionM σ Unit} {leave : SessionM σ β}
    {body : SessionM σ α} (henter : m.Steady empty enter) (hmark : m.Steady empty mark)
    (hleave : m.Steady empty leave) (hbody : m.Steady empty body) :
    m.Steady empty (bracket enter mark leave body) := by
  have hbracket : onNew (bracket enter mark leave body) =
      bracket (onNew enter) (onNew mark) (onNew leave) (onNew body) := by
    simp only [bracket, onNew_bind, onNew_settle]
    rfl
  rw [Steady, hbracket]
  exact parallel_bracket henter hmark hleave hbody

theorem steady_setTransaction (t : Option Transaction) :
    m.Steady empty (Caller.setTransaction t : SessionM σ Unit) := by
  have hspeaks : Follows m.Speaks (onNew (Caller.setTransaction t : SessionM σ Unit)) :=
    fun s => ⟨Course.refl _, m.new.talks_setTransaction t s.new⟩
  refine ⟨hspeaks, hspeaks, fun {s u os xs ys} hlevel _ hxs hys _ => ?_⟩
  obtain rfl := hxs.unique (Caller.heard_nil rfl rfl)
  obtain rfl := hys.unique (Caller.heard_nil rfl rfl)
  exact ⟨rfl, ⟨hlevel.old, rfl, hlevel.report⟩, rfl⟩

/-- What is done may depend on the open transaction, which is the same in both. -/
theorem steady_of_transaction (h : ∀ t, ∃ x', m.Steady empty x' ∧
    ∀ s : Session σ, s.transaction = t → x.run s = x'.run s) : m.Steady empty x := by
  have hrun {y : Migration σ} {x' : SessionM σ α} (hx' : x.run y.new = x'.run y.new) :
      (onNew x).run y = (onNew x').run y := by
    show ((x.run y.new).1, { y with new := (x.run y.new).2 }) = _
    rw [hx']
    rfl
  refine ⟨fun s => ?_, fun s => ?_, fun {s t os xs ys} hlevel hos hxs hys hreliable => ?_⟩
  · obtain ⟨x', hsteady, hx'⟩ := h s.new.transaction
    rw [hrun (hx' _ rfl)]
    exact hsteady.left s
  · obtain ⟨x', hsteady, hx'⟩ := h s.new.transaction
    rw [hrun (hx' _ rfl)]
    exact hsteady.right s
  · obtain ⟨x', hsteady, hx'⟩ := h s.new.transaction
    rw [hrun (hx' _ rfl)] at hos hxs ⊢
    rw [hrun (hx' _ hlevel.transaction.symm)] at hys ⊢
    exact hsteady.level hlevel hos hxs hys hreliable

end Steady

section Calls
variable (m : Migrator σ) (empty : String → Prop)

theorem steady_batch {sql : String} (hsql : Sql.opensWith "SELECT ROWID FROM " sql = false) :
    m.Steady empty (m.new.batch sql) :=
  steady_send (Answer.ofResult_injective (fun _ _ _ => rfl) fun _ _ => Answer.noConfusion)
    (m.new.heard_batch sql) (fun _ => rfl) hsql

theorem steady_change {sql : String} (hsql : Sql.opensWith "SELECT ROWID FROM " sql = false) :
    m.Steady empty (m.new.change sql) :=
  steady_send (Answer.ofResult_injective (fun _ _ => Answer.changed.inj)
    fun _ _ => Answer.noConfusion) (m.new.heard_change sql) (fun _ => rfl) hsql

theorem steady_control {command : Sql.Command} (h : command.opening ∉ Sql.copyingStarts) :
    m.Steady empty (m.new.batch command.text) :=
  m.steady_batch empty (Sql.Command.aside_text h _ (by simp [Sql.copyingStarts]))

theorem steady_begin (mode : TransactionMode) : m.Steady empty (m.new.begin mode) := by
  have hset (t : Transaction) : m.Steady empty
      (do Caller.setTransaction (some t); return true : SessionM σ Bool) :=
    steady_bind (steady_setTransaction _) fun _ => steady_pure _
  have hbegin : m.Steady empty (m.new.batch (Sql.Command.begin mode).text) :=
    m.steady_control empty (by cases mode <;> decide)
  have hacquire : m.Steady empty (m.new.acquire mode) := by
    refine steady_of_transaction fun t => ?_
    cases t with
    | none =>
      refine ⟨_, steady_bind hbegin fun _ => hset ⟨m.new.thread, 0, false⟩, fun s hs => ?_⟩
      simp only [Caller.acquire, run_bind, run_get, hs]
    | some t =>
      by_cases howner : t.owner = m.new.thread
      · refine ⟨_, hset { t with inner := t.inner + 1 }, fun s hs => ?_⟩
        simp only [Caller.acquire, run_bind, run_get, hs, if_pos howner]
      · refine ⟨_, steady_pure false, fun s hs => ?_⟩
        simp only [Caller.acquire, run_bind, run_get, hs, if_neg howner]
  refine steady_bind hacquire fun acquired => ?_
  cases acquired with
  | false => exact steady_throw _
  | true => exact steady_pure _

theorem steady_owned : m.Steady empty m.new.owned := by
  refine steady_of_transaction fun t => ?_
  cases t with
  | none =>
    refine ⟨_, steady_throw .transactionNotOpen, fun s hs => ?_⟩
    rw [m.new.run_owned, hs]
    rfl
  | some t =>
    by_cases howner : t.owner = m.new.thread
    · refine ⟨_, steady_pure t, fun s hs => ?_⟩
      rw [m.new.run_owned, hs]
      exact if_pos howner
    · refine ⟨_, steady_throw .transactionNotOwned, fun s hs => ?_⟩
      rw [m.new.run_owned, hs]
      exact if_neg howner

theorem steady_setSuccessful : m.Steady empty m.new.setSuccessful := by
  refine steady_bind (m.steady_owned empty) fun t => ?_
  split
  · exact steady_setTransaction _
  · exact steady_pure _

theorem steady_finish : m.Steady empty m.new.finish := by
  have hrollback : m.Steady empty (m.new.batch Sql.Command.rollback.text) :=
    m.steady_control empty (by decide)
  have hcommit : m.Steady empty m.new.commit := by
    refine steady_bind (steady_settle (m.steady_control empty (by decide))) fun result => ?_
    cases result with
    | ok _ => exact steady_pure _
    | error e => exact steady_bind (steady_settle hrollback) fun _ => steady_throw e
  refine steady_bind (m.steady_owned empty) fun t => ?_
  cases t.inner with
  | succ inner => exact steady_bind (steady_setTransaction _) fun _ => steady_pure _
  | zero =>
    refine steady_bind (steady_setTransaction _) fun _ => ?_
    split
    · exact hcommit
    · exact steady_bind hrollback fun _ => steady_pure _

/-- A write, with the level that is begun for it. -/
theorem parallel_write {command : Sql.Command} (h : command.opening ≠ "SELECT ROWID FROM ") :
    m.Parallel empty (m.write command) (m.write command) := by
  have hsql : Sql.opensWith "SELECT ROWID FROM " command.text = false := by
    rw [Sql.opensWith_text (by simp [Sql.copyingStarts])]
    exact decide_eq_false h
  have htransaction : m.Steady empty
      (m.new.transaction m.new.defaultMode (m.new.change command.text)) :=
    steady_bracket (m.steady_begin empty _) (m.steady_setSuccessful empty)
      (m.steady_finish empty) (m.steady_change empty hsql)
  exact steady_bind htransaction fun _ => steady_pure _

end Calls

end Migrator

end SqlMaps
