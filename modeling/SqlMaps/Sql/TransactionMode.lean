import SqlMaps.Text.Blank
import SqlMaps.Text.Case

/-! The modes a transaction can begin in. -/
namespace SqlMaps

/-- How early a transaction takes the locks of the database. -/
inductive TransactionMode where
  | deferred
  | immediate
  | exclusive
  deriving DecidableEq, Inhabited

namespace TransactionMode

/-- Every mode. -/
def all : List TransactionMode := [.deferred, .immediate, .exclusive]

/-- The name of the mode. -/
def name : TransactionMode → String
  | .deferred => "deferred"
  | .immediate => "immediate"
  | .exclusive => "exclusive"

/-- The statement that begins a transaction in the mode. -/
def beginStatement : TransactionMode → String
  | .deferred => "BEGIN DEFERRED"
  | .immediate => "BEGIN IMMEDIATE"
  | .exclusive => "BEGIN EXCLUSIVE"

/-- The mode of a name spelled exactly. -/
def ofName? (name : String) : Option TransactionMode :=
  all.find? fun mode => mode.name = name

/-- The mode that a text names, in any letter case and with white space around it;
otherwise the name that no mode has. -/
def read (s : String) : Except String TransactionMode :=
  let name := String.ofList (Text.lowercase (Text.trim s.toList))
  match ofName? name with
  | some mode => .ok mode
  | none => .error name

/-- The wording of a name that no mode has. -/
def unknownMessage (name : String) : String :=
  "unknown transaction mode: " ++ name

end TransactionMode

end SqlMaps
