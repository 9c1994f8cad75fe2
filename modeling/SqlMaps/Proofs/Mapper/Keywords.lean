import SqlMaps.Proofs.Mapper.Writes
import SqlMaps.Proofs.Markup.Grammar
import SqlMaps.Proofs.Session.Log

/-! What the statements of a mapper start with.

What a query compiles to is sent only if it starts with a keyword that the operation allows
(`checkStatement_isOk_iff`). So each operation sends such statements and brackets, in any state
of the session, whether it succeeds or fails (`statements_startWithKeyword`). The one statement
that nobody checks is the key query that a template itself writes (`OwnKeyQuery`): whatever
stands there is sent as a query behind the insert (`insert_sendsAnyKeyQuery`). -/
namespace SqlMaps
open Attempt
variable {σ α β : Type}

/-! ### The check -/

namespace Template

/-- Behind white space, the text starts with the keyword of one of the kinds, in capital or
small letters. -/
def StartsWith (kinds : List Kind) (sql : String) : Prop :=
  ∃ kind ∈ kinds, ∃ blanks word rest, sql.toList = blanks ++ (word ++ rest) ∧
    Text.allBlank blanks = true ∧ Text.sameLetters word kind.tag.toList = true

/-- No keyword begins with white space. -/
theorem isBlank_of_tag (kind : Kind) {word : List Char}
    (h : Text.sameLetters word kind.tag.toList = true) (rest : List Char) :
    ∀ c ∈ (word ++ rest).head?, Text.isBlank c = false := by
  have hheads : ∀ kind : Kind, (Text.lowercase kind.tag.toList).head?.any Text.isBlank = false ∧
      Text.lowercase kind.tag.toList ≠ [] := by
    rintro ((_ | _ | _ | _ | _) | (_ | (_ | _ | _ | _) | _)) <;> decide
  obtain ⟨hhead, hne⟩ := hheads kind
  rw [Text.sameLetters, beq_iff_eq] at h
  rw [← h] at hhead hne
  cases word with
  | nil => exact absurd rfl hne
  | cons d word =>
    rintro c ⟨⟩
    cases hblank : Text.isBlank d with
    | false => rfl
    | true =>
      have hlower := Text.isBlank_toLower hblank
      simp [Text.lowercase, hlower] at hhead

/-- The check passes exactly the statements that start with a keyword of the kinds. -/
theorem checkStatement_isOk_iff {sql : String} {kinds : List Kind} :
    (checkStatement sql kinds).isOk = true ↔ StartsWith kinds sql := by
  have hcheck : (checkStatement sql kinds).isOk = true ↔
      ∃ kind ∈ kinds,
        Text.startsWithKeyword kind.tag.toList (Text.trimStart sql.toList) = true := by
    rw [← List.any_eq_true, checkStatement]
    split
    · next h => simpa [Except.isOk, Except.toBool] using h
    · next h => simpa [Except.isOk, Except.toBool] using h
  rw [hcheck]
  constructor
  · rintro ⟨kind, hkind, hstart⟩
    obtain ⟨blanks, hblanks, hsql⟩ := Text.exists_trimStart sql.toList
    refine ⟨kind, hkind, blanks, (Text.trimStart sql.toList).take kind.tag.toList.length,
      (Text.trimStart sql.toList).drop kind.tag.toList.length, ?_, hblanks, hstart⟩
    rw [List.take_append_drop]
    exact hsql
  · rintro ⟨kind, hkind, blanks, word, rest, hsql, hblanks, hword⟩
    have htrim : Text.trimStart sql.toList = word ++ rest := by
      rw [hsql, Text.trimStart_append hblanks]
      exact Text.trimStart_of_head (isBlank_of_tag kind hword rest)
    have hlength : word.length = kind.tag.toList.length := by
      simpa [Text.lowercase] using congrArg List.length (beq_iff_eq.1 hword)
    refine ⟨kind, hkind, ?_⟩
    rw [Text.startsWithKeyword, htrim, List.take_left' hlength]
    exact hword

end Template

/-- The entry of a statement on the channel that starts with a keyword of the kinds. -/
structure Entry.Opens (channel : Channel) (kinds : List Template.Kind) (e : Entry) : Prop where
  channel : e.channel = channel
  keyword : Template.StartsWith kinds e.sql

namespace Mapper
variable (m : Mapper σ)

theorem startsWith_of_prepare {id : String} {params : List Param} {kinds : List Template.Kind}
    {query : Template.CompiledQuery} (h : m.prepare id params kinds = .ok query) :
    Template.StartsWith kinds query.sql :=
  Template.checkStatement_isOk_iff.1 (by rw [m.check_of_prepare h]; rfl)

/-- The computation sends selects, as queries, and nothing else. -/
abbrev Selecting (x : SessionM σ α) : Prop :=
  Follows (Logs (Entry.Opens .query selects)) x

/-- An entry of a write of the kinds: what it writes, or what begins or ends a transaction. -/
def WriteEntry (kinds : List Template.Kind) (e : Entry) : Prop :=
  e.Brackets ∨ e.Opens .execute kinds

/-- The computation sends writes of the kinds, and what begins or ends a transaction. -/
abbrev Writing (kinds : List Template.Kind) (x : SessionM σ α) : Prop :=
  Follows (Logs (WriteEntry kinds)) x

/-- The entry of the key query that the template itself writes for the insert. -/
def OwnKeyQuery (id : String) (params : List Param) (e : Entry) : Prop :=
  ∃ query node property, m.prepare id params inserts = .ok query ∧
    keyProperty query = .ok (some (node, property)) ∧ node.sql ≠ "" ∧
    e.statement = (.query, node.sql)

/-- An entry of an insert: what it writes, its key query, or what begins or ends a
transaction. -/
def InsertEntry (id : String) (params : List Param) (e : Entry) : Prop :=
  WriteEntry inserts e ∨ e.Opens .query selects ∨ m.OwnKeyQuery id params e

/-! ### Selects -/

theorem logs_selectRows (id : String) (params : List Param) :
    Selecting (m.selectRows id params) := by
  refine follows_settled_bind fun query hquery => m.caller.logs_query fun e hchannel hsql => ?_
  exact ⟨hchannel, hsql ▸ m.startsWith_of_prepare hquery⟩

/-- Whatever is made of the rows of a select, no more is sent. -/
theorem logs_ofRows {id : String} {params : List Param} {f : RowSet → SessionM σ α}
    (hf : ∀ rows s, ((f rows).run s).2 = s) :
    Selecting (m.selectRows id params >>= f) :=
  follows_bind (m.logs_selectRows id params) fun rows => follows_of_unchanged (hf rows)

theorem logs_selectList (bean : Bean β) (id : String) (params : List Param) :
    Selecting (m.selectList bean id params) :=
  m.logs_ofRows fun _ _ => rfl

theorem logs_selectOne (bean : Bean β) (id : String) (params : List Param) :
    Selecting (m.selectOne bean id params) :=
  follows_bind (m.logs_selectList bean id params) fun _ => follows_settled _

theorem logs_selectValues (type : FieldType) (id : String) (params : List Param) :
    Selecting (m.selectValues type id params) := by
  refine m.logs_ofRows fun rows s => ?_
  by_cases hwidth : rows.width ≠ 1 <;> simp [hwidth]

theorem logs_selectValue (type : FieldType) (id : String) (params : List Param) :
    Selecting (m.selectValue type id params) :=
  follows_bind (m.logs_selectValues type id params) fun _ => follows_settled _

theorem logs_selectKeyed (key : String) (keyType : FieldType)
    (content : Record → Except RunError α) (id : String) (params : List Param) :
    Selecting (m.selectKeyed key keyType content id params) := by
  refine m.logs_ofRows fun rows s => ?_
  by_cases hwidth : rows.width ≤ 1
  · simp [hwidth]
  · simp only [hwidth, if_false]
    exact congrArg Prod.snd (run_bind_pure _ _ s)

/-! ### Writes -/

theorem logs_execute {kinds : List Template.Kind} {id : String} {params : List Param}
    {query : Template.CompiledQuery} (h : m.prepare id params kinds = .ok query) :
    Writing kinds (m.caller.execute query.sql) :=
  m.caller.logs_execute (fun _ => .inl) fun _ hchannel hsql =>
    .inr ⟨hchannel, hsql ▸ m.startsWith_of_prepare h⟩

theorem logs_write (kinds : List Template.Kind) (id : String) (params : List Param) :
    Writing kinds (m.write kinds id params) :=
  follows_settled_bind fun _ hquery => m.logs_execute hquery

/-- The key query is the library's own, which is a select, or it stands in the template. -/
theorem insertEntry_keyQuery {id : String} {params : List Param} {query : Template.CompiledQuery}
    {node : Template.Node} {property : String} (hquery : m.prepare id params inserts = .ok query)
    (hkey : keyProperty query = .ok (some (node, property))) {e : Entry}
    (he : e.statement = (.query, node.selectKeySql)) : m.InsertEntry id params e := by
  obtain ⟨hchannel, hsql⟩ := Prod.mk.inj he
  rw [Template.Node.selectKeySql] at hsql
  by_cases hempty : node.sql = ""
  · rw [if_pos hempty] at hsql
    have hselect : Template.StartsWith selects Template.defaultSelectKeySql :=
      Template.checkStatement_isOk_iff.1 (by decide)
    exact .inr (.inl ⟨hchannel, hsql ▸ hselect⟩)
  · rw [if_neg hempty] at hsql
    exact .inr (.inr ⟨query, node, property, hquery, hkey, hempty, Prod.ext hchannel hsql⟩)

theorem logs_insertKeyed (id : String) (params : List Param) :
    Follows (Logs (m.InsertEntry id params)) (m.insertKeyed id params) := by
  refine follows_settled_bind fun query hquery => follows_settled_bind fun key hkey => ?_
  have hexecute : Follows (Logs (m.InsertEntry id params)) (m.caller.execute query.sql) :=
    fun s => (m.logs_execute hquery s).mono fun _ => .inl
  have hdiscard := follows_map (R := Logs (m.InsertEntry id params)) (fun _ => ()) hexecute
  cases key with
  | none => exact follows_bind hdiscard fun _ => follows_pure _
  | some pair =>
    obtain ⟨node, property⟩ := pair
    have hbody : Follows (Logs (m.InsertEntry id params)) (do
        discard (m.caller.execute query.sql)
        let rows ← m.caller.query node.selectKeySql
        settled (keyOf rows)) :=
      follows_bind hdiscard fun _ =>
        follows_bind (m.caller.logs_query fun e hchannel hsql =>
          m.insertEntry_keyQuery hquery hkey (Prod.ext hchannel hsql)) fun _ => follows_settled _
    exact follows_bind (m.caller.logs_transaction (fun _ h => .inl (.inl h)) _ hbody)
      fun _ => follows_pure _

theorem logs_insert (id : String) (params : List Param) :
    Follows (Logs (m.InsertEntry id params)) (m.insert id params) :=
  follows_bind (m.logs_insertKeyed id params) fun _ => follows_pure _

/-- Inserting a bean leaves the session where inserting its fields leaves it. -/
theorem session_insertBean (bean : Bean β) (id : String) (b : β) (s : Session σ) :
    ((m.insertBean bean id b).run s).2 = ((m.insertKeyed id (bean.toParams b)).run s).2 := by
  rw [insertBean, StateT.run_bind]
  cases hrun : (m.insertKeyed id (bean.toParams b)).run s with
  | mk r s' =>
    have hrun' : StateT.run (m.insertKeyed id (bean.toParams b)).run s = (r, s') := hrun
    rw [hrun']
    rcases r with e | _ | ⟨property, value⟩
    · rfl
    · rfl
    · cases hset : bean.setField b property value.text? with
      | mk r b' => cases r <;> simp only [bind, hset] <;> rfl

/-- Every statement that an operation of a mapper sends, in any state of the session, begins
or ends a transaction for it, or starts with a keyword that the operation allows: a select sends
queries that are selects, and a write statements of its kinds. An insert also sends its key
query, which is a select where the library writes it; the one that a template writes is sent as
it stands. -/
theorem statements_startWithKeyword (id : String) (params : List Param) :
    Selecting (m.selectRows id params) ∧
    Follows (Logs (m.InsertEntry id params)) (m.insert id params) ∧
    Writing updates (m.update id params) ∧ Writing deletes (m.delete id params) ∧
    (∀ type, Selecting (m.selectValues type id params) ∧ Selecting (m.selectValue type id params)) ∧
    (∀ key keyType column type, Selecting (m.selectValueMap key keyType column type id params)) ∧
    ∀ {β : Type} (bean : Bean β),
      Selecting (m.selectList bean id params) ∧ Selecting (m.selectOne bean id params) ∧
      (∀ key keyType, Selecting (m.selectMap bean key keyType id params)) ∧
      ∀ b, (∀ s, Logs (m.InsertEntry id (bean.toParams b)) s ((m.insertBean bean id b).run s).2) ∧
        Writing updates (m.updateBean bean id b) ∧ Writing deletes (m.deleteBean bean id b) := by
  refine ⟨m.logs_selectRows id params, m.logs_insert id params, m.logs_write updates id params,
    m.logs_write deletes id params, fun type => ⟨m.logs_selectValues type id params,
      m.logs_selectValue type id params⟩, fun key keyType column type =>
      m.logs_selectKeyed key keyType _ id params, fun bean => ⟨m.logs_selectList bean id params,
      m.logs_selectOne bean id params, fun key keyType =>
      m.logs_selectKeyed key keyType _ id params, fun b => ⟨fun s => ?_,
      m.logs_write updates id _, m.logs_write deletes id _⟩⟩⟩
  rw [m.session_insertBean bean id b s]
  exact m.logs_insertKeyed id _ s

/-- A key query of a template may be any statement. This one deletes all rows, and succeeds. -/
theorem insert_sendsAnyKeyQuery :
    let m := keyedBy (.text "DELETE FROM t" .nil)
    let p := (m.insert "add" []).run (.start [])
    let e : Entry := ⟨"main", .query, "DELETE FROM t", true⟩
    e ∈ p.2.log ∧ ¬ e.Brackets ∧
      ¬ Template.StartsWith (selects ++ inserts) e.sql := by
  intro m p e
  have hcheck : (Template.checkStatement e.sql (selects ++ inserts)).isOk = false := by decide
  refine ⟨by decide +kernel, fun h => (nomatch h.channel), fun h => ?_⟩
  rw [Template.checkStatement_isOk_iff.2 h] at hcheck
  cases hcheck

end Mapper

end SqlMaps
