/-! Markup events: what a reader of templates is handed, one at a time. -/
namespace SqlMaps.Markup

/-- Attributes in the order they are written; a name may occur again. -/
abbrev Attributes := List (String × String)

/-- The value of an attribute: the last one written under the name. -/
def Attributes.value? (attributes : Attributes) (name : String) : Option String :=
  attributes.reverse.lookup name

/-- One event of a stream. -/
inductive Event where
  | start (name : String) (attributes : Attributes)
  /-- Character data, with its references decoded. -/
  | text (content : String)
  | finish (name : String)
  | endOfStream
  deriving DecidableEq

/-- What is wrong with a text that is no markup. -/
inductive Fault where
  | unrecognized
  | mismatched (expected found : String)
  | unexpectedEnd (name : String)
  | neverClosed (name : String)
  | endedInside (name : String)
  /-- A fault reported by a source in its own words. -/
  | reported (text : String)
  deriving DecidableEq

/-- The wording of a fault. -/
def Fault.message : Fault → String
  | .unrecognized => "unrecognized markup"
  | .mismatched expected found => "expected </" ++ expected ++ ">, found </" ++ found ++ ">"
  | .unexpectedEnd name => "unexpected </" ++ name ++ ">"
  | .neverClosed name => "element <" ++ name ++ "> is never closed"
  | .endedInside name => "stream ended inside <" ++ name ++ ">"
  | .reported text => text

/-- Why markup cannot be read. -/
inductive Error where
  /-- A fault at a number of bytes from the start. -/
  | malformed (offset : Nat) (fault : Fault)
  | closed
  | source (text : String)
  deriving DecidableEq

/-- The wording of an error. -/
def Error.message : Error → String
  | .malformed offset fault =>
    "malformed markup at byte " ++ toString offset ++ ": " ++ fault.message
  | .closed => "markup stream is closed"
  | .source text => "markup source I/O error: " ++ text

end SqlMaps.Markup
