import SqlMaps.Value.Basic

/-! Named values bound for one compilation.

A name may be given more than once; the last value counts. Values are kept in the
form a placeholder inserts. -/
namespace SqlMaps

/-- A name and the value given for it. -/
structure Param where
  name : String
  value : Value
  deriving DecidableEq

/-- The values bound by name, in the order they were given. -/
structure Params where
  entries : List (String × Value)
  deriving DecidableEq

namespace Params

/-- The values of a list of parameters, each in its bound form. -/
def ofList (params : List Param) : Params :=
  ⟨params.map fun p => (p.name, p.value.bound)⟩

/-- The value bound to a name. -/
def get? (params : Params) (name : String) : Option Value :=
  params.entries.reverse.lookup name

/-- Whether the name is bound to nothing or to an absent value. -/
def isNull (params : Params) (name : String) : Bool :=
  (params.get? name).all Value.isNull

/-- The text that the value of a name is compared by. -/
def comparisonText (params : Params) (name : String) : String :=
  ((params.get? name).getD .null).display

/-- How many names are bound. -/
def size (params : Params) : Nat :=
  (params.entries.map Prod.fst).eraseDups.length

/-- Whether no name is bound. -/
def isEmpty (params : Params) : Bool :=
  params.entries.isEmpty

end Params

end SqlMaps
