import SqlMaps.Engine.Basic

/-! An engine that answers from a list of rules, without understanding a statement. -/
namespace SqlMaps

/-- What a rule answers, and to which statements. -/
structure Rule where
  /-- The channel it is for; any when absent. -/
  channel : Option Channel
  /-- The statement it is for. -/
  sql : Option String
  /-- How the statement has to start. -/
  start : Option String
  /-- How often it can still be used; without end when absent. -/
  uses : Option Nat
  /-- The error it answers with. -/
  failure : Option RunError
  /-- The number of rows it says were changed. -/
  changed : Nat
  /-- The rows it answers a query with. -/
  rows : RowSet

namespace Rule

/-- The answer when no rule is for a statement. -/
def fallback : Rule := ⟨none, none, none, none, none, 1, .empty⟩

/-- Whether the rule is for a statement, and can still be used. -/
def answers (r : Rule) (channel : Channel) (sql : String) : Bool :=
  r.channel.all (· == channel) && r.sql.all (· == sql) &&
    r.start.all (fun s => s.toList.isPrefixOf sql.toList) && r.uses != some 0

/-- The rule after a use. -/
def use (r : Rule) : Rule :=
  { r with uses := r.uses.map (· - 1) }

end Rule

namespace Script

/-- The first rule for a statement, and the rules after its use. -/
def choose (channel : Channel) (sql : String) : List Rule → Rule × List Rule
  | [] => (.fallback, [])
  | r :: rules =>
    if r.answers channel sql then (r, r.use :: rules)
    else
      let (chosen, rest) := choose channel sql rules
      (chosen, r :: rest)

/-- Answers a statement by a rule. -/
def answer (channel : Channel) (sql : String) (content : Rule → α) (rules : List Rule) :
    Except RunError α × List Rule :=
  let (r, rest) := choose channel sql rules
  (match r.failure with
    | some e => .error e
    | none => .ok (content r), rest)

/-- The engine that answers from rules. -/
def engine : Engine (List Rule) where
  batch sql := answer .batch sql fun _ => ()
  execute sql := answer .execute sql Rule.changed
  query sql := answer .query sql Rule.rows

end Script

end SqlMaps
