import SqlMaps.Yaml.Document
import SqlMaps.Yaml.Layout

/-! Reading YAML documents. -/
namespace SqlMaps.Yaml

/-- The document that a text holds, if it holds just one. A text of nothing but comments
holds an empty one. -/
def read (text : String) : Option Document := do
  guard (text.toList.all isAllowed)
  let node ← nodeOf? (← tokens? (normalBreaks text.toList))
  return .ofNode node

end SqlMaps.Yaml
