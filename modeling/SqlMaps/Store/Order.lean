import SqlMaps.Store.Basic

/-! The order of stored values, and of the rows of a table under it.

Nothing comes first, then numbers by size, texts by their characters, and bytes. -/
namespace SqlMaps.Store

/-- A number of a store: infinite, or an integer times a power of two. -/
inductive Size where
  | infinite (negative : Bool)
  | finite (m q : Int)

namespace Size

/-- Whether a number is less than another. -/
def less : Size → Size → Bool
  | .infinite negative, .infinite other => negative && !other
  | .infinite negative, .finite .. => negative
  | .finite .., .infinite negative => !negative
  | .finite m q, .finite n r =>
    let least := min q r
    m * Number.pow2 (q - least).toNat < n * Number.pow2 (r - least).toNat

/-- The number that a value is, if it is one. -/
def ofValue? : Value → Option Size
  | .integer n => some (.finite n.toInt 0)
  | .real x => match x.shape with
    | .nan => none
    | .infinite negative => some (.infinite negative)
    | .finite negative m q => some (.finite (if negative then -m else m) q)
  | _ => none

end Size

/-- Whether a stored value comes before another. -/
def before (v w : Value) : Bool :=
  match v, w with
  | .text s, .text t => s < t
  | .blob b, .blob c => b < c
  | v, w =>
    match Size.ofValue? v, Size.ofValue? w with
    | some a, some b => a.less b
    | _, _ => rank v < rank w
where
  rank : Value → Nat
    | .null => 0
    | .text _ => 2
    | .blob _ => 3
    | _ => 1

namespace Table

/-- The rows in the order of what statements get for their ids. -/
def ordered (t : Table) : List Row :=
  match t.rowIdNamed? with
  | none => t.rows
  | some _ => t.rows.mergeSort fun r s => !before (t.rowIdOf s) (t.rowIdOf r)

/-- Every row in order: what statements get for its id, and then its values. -/
def listing (t : Table) : List (List Value) :=
  t.ordered.map fun row => t.rowIdOf row :: row.values

end Table

end SqlMaps.Store
