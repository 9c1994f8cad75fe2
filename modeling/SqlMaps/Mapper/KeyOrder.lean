import SqlMaps.Value.Basic

/-! The order in which the keys of a select are listed. -/
namespace SqlMaps.Value

/-- No before yes, numbers by size, texts character by character. Keys of different
types have no order among them. -/
def before : Value → Value → Bool
  | .flag b, .flag c => !b && c
  | .integer m, .integer n => m.toInt < n.toInt
  | .text s, .text t => s < t
  | _, _ => false

end SqlMaps.Value
