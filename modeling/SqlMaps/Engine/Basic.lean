import SqlMaps.Engine.RowSet

/-! Database engines: what runs the text of a statement. -/
namespace SqlMaps

/-- How a statement is sent. -/
inductive Channel where
  /-- Statements that return nothing. -/
  | batch
  /-- One statement, answered with the number of rows it changed. -/
  | execute
  /-- One statement, answered with rows. -/
  | query
  deriving DecidableEq

/-- The name of a channel. -/
def Channel.name : Channel → String
  | .batch => "batch"
  | .execute => "execute"
  | .query => "query"

/-- A database in the state `σ`. A statement that fails may change the state too. -/
structure Engine (σ : Type) where
  batch : String → σ → Except RunError Unit × σ
  execute : String → σ → Except RunError Nat × σ
  query : String → σ → Except RunError RowSet × σ

end SqlMaps
