import SqlMaps.Bean.Basic

/-! Forms: beans given by a list of named and typed fields. -/
namespace SqlMaps

/-- A named field of a type, and what it holds. -/
structure Field where
  name : String
  type : FieldType
  value : Value
  deriving DecidableEq

/-- An object made of fields. -/
abbrev Form := List Field

namespace Form

/-- The fields as parameters, in order. -/
def toParams (form : Form) : List Param :=
  form.map fun f => ⟨f.name, f.value⟩

/-- Puts a value into the fields of a name. -/
def put (form : Form) (name : String) (value : Value) : Form :=
  form.map fun f => if f.name = name then { f with value } else f

/-- Reads a text into the field of a name; the form is left as it is when it has no
such field or the text does not fit. -/
def setField (form : Form) (name : String) (text : Option String) :
    Except FieldError Unit × Form :=
  match form.find? (·.name = name) with
  | none => (.error (.unknown name), form)
  | some f =>
    match f.type.parseField name text with
    | .ok value => (.ok (), form.put name value)
    | .error e => (.error e, form)

/-- The forms that start out as `blank`. -/
def bean (blank : Form) : Bean Form := ⟨blank, toParams, setField⟩

end Form

end SqlMaps
