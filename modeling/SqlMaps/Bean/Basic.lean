import SqlMaps.Engine.RowSet

/-! Beans: objects whose fields are filled from columns and bound as parameters. -/
namespace SqlMaps

/-- How objects of a type give away and take in their fields. A field is set from the
text of a column, which is missing when the column is null. -/
structure Bean (β : Type) where
  /-- The object that no field has been set of. -/
  blank : β
  toParams : β → List Param
  setField : β → String → Option String → Except FieldError Unit × β

namespace Bean

/-- Sets a field from the text of a value. A column that is no field is passed over. -/
def fillField (bean : Bean β) (b : β) (column : String) (value : Value) :
    Except RunError β :=
  match bean.setField b column value.text? with
  | (.ok (), b) => .ok b
  | (.error (.unknown _), b) => .ok b
  | (.error e, _) => .error (.field e)

/-- Sets fields from columns, one after another. -/
def fill (bean : Bean β) : List (String × Value) → β → Except RunError β
  | [], b => .ok b
  | (column, value) :: rest, b => do
    let b ← bean.fillField b column value
    bean.fill rest b

/-- The object that a row holds. -/
def ofRecord (bean : Bean β) (r : Record) : Except RunError β :=
  bean.fill r.entries bean.blank

end Bean

end SqlMaps
