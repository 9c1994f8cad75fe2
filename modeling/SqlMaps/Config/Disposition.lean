/-! What becomes of a row that is copied into another database. -/
namespace SqlMaps

/-- A row is left out, written as a new row, or written over the row with its id. -/
inductive Disposition where
  | skip
  | insert
  | update
  deriving DecidableEq, Inhabited

namespace Disposition

/-- Every disposition. -/
def all : List Disposition := [.skip, .insert, .update]

/-- The name of the disposition. -/
def name : Disposition → String
  | .skip => "skip"
  | .insert => "insert"
  | .update => "update"

/-- The disposition of a name spelled exactly. -/
def ofName? (name : String) : Option Disposition :=
  all.find? fun disposition => disposition.name = name

end Disposition

end SqlMaps
