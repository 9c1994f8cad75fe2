import SqlMaps.Config.Retention
import SqlMaps.Yaml.Reader
import SqlMaps.Yaml.Writer

/-! Retention settings as YAML. -/
namespace SqlMaps.Retention

/-- A disposition by its name. -/
def dispositionOf? (d : Yaml.Document) (node : Yaml.Node) : Option Disposition := do
  Disposition.ofName? (← d.word? node)

/-- The entries of a mapping, each value read; the last one under a key counts. -/
def keyedOf? (d : Yaml.Document) (read : Yaml.Node → Option α) (node : Yaml.Node) :
    Option (Keyed String α) := do
  let entries ← d.entries? node
  let values ← entries.mapM fun (key, value) => do return (key, ← read value)
  return .ofList Keyed.byName values

/-- The settings that a document holds. Settings it does not name have their defaults, and
names that are no setting are passed over. -/
def ofDocument? (d : Yaml.Document) : Option Retention := do
  let entries ← d.entries? d.root
  return {
    ignoredTables := ← Yaml.readField entries "ignore_tables" (some []) d.texts?
    ignoredColumns := ← Yaml.readField entries "ignore_columns" (some []) (keyedOf? d d.texts?)
    defaultDisposition :=
      ← Yaml.readField entries "default_disposition" (some .update) (dispositionOf? d)
    tableDispositions :=
      ← Yaml.readField entries "table_dispositions" (some []) (keyedOf? d (dispositionOf? d)) }

/-- Reads settings, and checks them. -/
def ofYaml (text : String) : Except ConfigError Retention :=
  match (Yaml.read text).bind ofDocument? with
  | none => .error .yaml
  | some r => do
    r.validate
    return r

/-- The settings as YAML. -/
def toYaml (r : Retention) : String :=
  let columns (indent : Nat) (e : String × List String) : List Char :=
    Yaml.entry indent e.1 (Yaml.sequenceValue indent e.2)
  let disposition (indent : Nat) (e : String × Disposition) : List Char :=
    Yaml.entry indent e.1 (Yaml.wordValue e.2.name)
  String.ofList <|
    Yaml.entry 0 "ignore_tables" (Yaml.sequenceValue 0 r.ignoredTables) ++
    Yaml.entry 0 "ignore_columns" (Yaml.mappingValue 0 columns r.ignoredColumns) ++
    Yaml.entry 0 "default_disposition" (Yaml.wordValue r.defaultDisposition.name) ++
    Yaml.entry 0 "table_dispositions" (Yaml.mappingValue 0 disposition r.tableDispositions)

end SqlMaps.Retention
