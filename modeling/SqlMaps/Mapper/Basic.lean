import SqlMaps.Bean.Basic
import SqlMaps.Keyed
import SqlMaps.Mapper.KeyOrder
import SqlMaps.Session.Basic
import SqlMaps.Template.Compile

/-! Mappers: the queries of a template, run on a session.

A query is compiled with its parameters, and its text has to start with a keyword
that the operation allows before anything is sent. Selects return rows, beans, single
values or maps; writes run in a transaction of their own, or inside the one that is
open. -/
namespace SqlMaps

/-- A template whose queries are run by a caller of a session. -/
structure Mapper (σ : Type) where
  caller : Caller σ
  source : Template.Source

namespace Mapper

/-- The statements that a select may run. -/
def selects : List Template.Kind := [.statement .select]
/-- The statements that an insert may run. -/
def inserts : List Template.Kind := [.statement .insert]
/-- The statements that an update may run. -/
def updates : List Template.Kind := [.statement .update]
/-- The statements that a delete may run. -/
def deletes : List Template.Kind := [.statement .delete, .statement .drop]

/-- Compiles a query and checks its keyword. -/
def prepare (m : Mapper σ) (id : String) (params : List Param) (kinds : List Template.Kind) :
    Except RunError Template.CompiledQuery := do
  let query ← (Template.compile m.source id params).mapError .compile
  (Template.checkStatement query.sql kinds).mapError .compile
  return query

/-! ### Selects -/

/-- The rows of a select. -/
def selectRows (m : Mapper σ) (id : String) (params : List Param) : SessionM σ RowSet := do
  let query ← settled (m.prepare id params selects)
  m.caller.query query.sql

/-- The beans that the rows of a select hold. -/
def selectList (m : Mapper σ) (bean : Bean β) (id : String) (params : List Param) :
    SessionM σ (List β) := do
  let rows ← m.selectRows id params
  settled (rows.records.mapM bean.ofRecord)

/-- The only item of a list, if there is one; more are refused. -/
def atMostOne : List α → Except RunError (Option α)
  | [] => .ok none
  | [a] => .ok (some a)
  | _ => .error (.resultCount .zeroOrOne)

/-- The bean of a select of one row at most. -/
def selectOne (m : Mapper σ) (bean : Bean β) (id : String) (params : List Param) :
    SessionM σ (Option β) := do
  let beans ← m.selectList bean id params
  settled (atMostOne beans)

/-- The values of a select of one column. -/
def selectValues (m : Mapper σ) (type : FieldType) (id : String) (params : List Param) :
    SessionM σ (List Value) := do
  let rows ← m.selectRows id params
  if rows.width ≠ 1 then throw (.columnCount .one)
  settled (rows.records.mapM fun r => r.get (.at 0) type)

/-- The value of a select of one column and one row at most. -/
def selectValue (m : Mapper σ) (type : FieldType) (id : String) (params : List Param) :
    SessionM σ (Option Value) := do
  let values ← m.selectValues type id params
  settled (atMostOne values)

/-- What `content` makes of the rows of a select, filed under the key column. -/
def selectKeyed (m : Mapper σ) (key : String) (keyType : FieldType)
    (content : Record → Except RunError α) (id : String) (params : List Param) :
    SessionM σ (Keyed Value α) := do
  let rows ← m.selectRows id params
  if rows.width ≤ 1 then throw (.columnCount .several)
  let entries ← settled (rows.records.mapM fun r => do
    let k ← r.get (.named key) keyType
    let a ← content r
    return (k, a))
  return Keyed.ofList Value.before entries

/-- The beans of a select, filed under the key column. -/
def selectMap (m : Mapper σ) (bean : Bean β) (key : String) (keyType : FieldType)
    (id : String) (params : List Param) : SessionM σ (Keyed Value β) :=
  m.selectKeyed key keyType bean.ofRecord id params

/-- The values of a column of a select, filed under the key column. -/
def selectValueMap (m : Mapper σ) (key : String) (keyType : FieldType) (column : String)
    (type : FieldType) (id : String) (params : List Param) : SessionM σ (Keyed Value Value) :=
  m.selectKeyed key keyType (fun r => r.get (.named column) type) id params

/-! ### Writes -/

/-- The single value of a key query. No rows give none. -/
def keyOf (rows : RowSet) : Except RunError (Option Value) :=
  if rows.isEmpty then .ok none
  else if rows.width ≠ 1 then .error (.columnCount .one)
  else if rows.size ≠ 1 then .error (.resultCount .one)
  else .ok rows.scalar?

/-- The select key of an insert and the property that takes the key, if it has one. -/
def keyProperty (query : Template.CompiledQuery) :
    Except RunError (Option (Template.Node × String)) :=
  match query.selectKeys with
  | [] => .ok none
  | [key] =>
    match key.attributes.value? "keyProperty" with
    | some property => .ok (some (key, property))
    | none => .error .missingKeyProperty
  | keys => .error (.selectKeyCount keys.length)

/-- Runs an insert and its key query in one transaction, for the key and the property
that takes it. -/
def insertKeyed (m : Mapper σ) (id : String) (params : List Param) :
    SessionM σ (Option (String × Value)) := do
  let query ← settled (m.prepare id params inserts)
  match ← settled (keyProperty query) with
  | none =>
    discard (m.caller.execute query.sql)
    return none
  | some (key, property) =>
    let (value, _) ← m.caller.transaction m.caller.defaultMode do
      discard (m.caller.execute query.sql)
      let rows ← m.caller.query key.selectKeySql
      settled (keyOf rows)
    return value.map (property, ·)

/-- Runs an insert, for the key that its key query gives. -/
def insert (m : Mapper σ) (id : String) (params : List Param) : SessionM σ (Option Value) := do
  return (← m.insertKeyed id params).map Prod.snd

/-- Inserts a bean and sets the key in it. The bean comes back whatever happens. -/
def insertBean (m : Mapper σ) (bean : Bean β) (id : String) (b : β) :
    StateM (Session σ) (Except RunError (Option Value) × β) := do
  match ← (m.insertKeyed id (bean.toParams b)).run with
  | .error e => return (.error e, b)
  | .ok none => return (.ok none, b)
  | .ok (some (property, value)) =>
    match bean.setField b property value.text? with
    | (.ok (), b) => return (.ok (some value), b)
    | (.error e, b) => return (.error (.field e), b)

/-- Runs a write of the kinds, for the number of rows it changes. -/
def write (m : Mapper σ) (kinds : List Template.Kind) (id : String) (params : List Param) :
    SessionM σ Nat := do
  let query ← settled (m.prepare id params kinds)
  m.caller.execute query.sql

/-- Runs an update. -/
def update (m : Mapper σ) (id : String) (params : List Param) : SessionM σ Nat :=
  m.write updates id params

/-- Runs an update with the fields of a bean. -/
def updateBean (m : Mapper σ) (bean : Bean β) (id : String) (b : β) : SessionM σ Nat :=
  m.update id (bean.toParams b)

/-- Runs a delete, or drops what the statement names. -/
def delete (m : Mapper σ) (id : String) (params : List Param) : SessionM σ Nat :=
  m.write deletes id params

/-- Runs a delete with the fields of a bean. -/
def deleteBean (m : Mapper σ) (bean : Bean β) (id : String) (b : β) : SessionM σ Nat :=
  m.delete id (bean.toParams b)

end Mapper

end SqlMaps
