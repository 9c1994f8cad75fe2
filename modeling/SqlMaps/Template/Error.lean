import SqlMaps.Markup.Event
import SqlMaps.Template.Kind

/-! Why a query cannot be compiled from a template. -/
namespace SqlMaps.Template

/-- An element that stands where it may not. -/
inductive Misplacement where
  | directiveOutside (name : String)
  | nestedStatement (inner outer : String)
  | selectKeyInside (owner : Kind)
  /-- A fault reported in its own words. -/
  | reported (text : String)
  deriving DecidableEq

/-- The wording of a misplacement. -/
def Misplacement.message : Misplacement → String
  | .directiveOutside name => "<" ++ name ++ "> appears outside of a statement"
  | .nestedStatement inner outer =>
    "statement <" ++ inner ++ "> nested inside <" ++ outer ++ ">"
  | .selectKeyInside owner =>
    "<selectKey> must sit directly inside an <insert> statement, found inside <" ++
      owner.tag ++ ">"
  | .reported text => text

/-- Why a query cannot be compiled, or is not the statement that was wanted. -/
inductive CompileError where
  | queryNotFound (id : String)
  | malformed (cause : Markup.Error)
  | illegalStructure (cause : Misplacement)
  | wrongStatement (expected : List Kind) (sql : String)
  deriving DecidableEq

/-- The stream has ended while the element was open. -/
def CompileError.endedInside (name : String) : CompileError :=
  .malformed (.malformed 0 (.endedInside name))

/-- The wording of an error. -/
def CompileError.message : CompileError → String
  | .queryNotFound id => "query identifier not found in template: " ++ id
  | .malformed cause => "malformed template: " ++ cause.message
  | .illegalStructure cause => "illegal inner structure: " ++ cause.message
  | .wrongStatement expected sql =>
    "illegal sql statement, expected one of [" ++ ", ".intercalate (expected.map Kind.tag) ++
      "]: " ++ sql

end SqlMaps.Template
