/-! Entries filed under keys, in the order of the keys and each key once: the last
entry given for a key is the one that is kept. Filing changes what is under its own key
and nothing else, whatever the order (`lookup_file`). -/
namespace SqlMaps

/-- Entries in the order of their keys. -/
abbrev Keyed (κ α : Type) := List (κ × α)

namespace Keyed

variable {κ α : Type} [DecidableEq κ]

/-- Files an entry, in place of the one under the same key. -/
def file (before : κ → κ → Bool) (key : κ) (a : α) : Keyed κ α → Keyed κ α
  | [] => [(key, a)]
  | (k, b) :: rest =>
    if k = key then (key, a) :: rest
    else if before key k then (key, a) :: (k, b) :: rest
    else (k, b) :: file before key a rest

/-- Files entries one after another. -/
def ofList (before : κ → κ → Bool) (entries : List (κ × α)) : Keyed κ α :=
  entries.foldl (fun filed (key, a) => file before key a filed) []

/-- Filing puts the entry under its key, and leaves every other key as it was. -/
theorem lookup_file (before : κ → κ → Bool) (key : κ) (a : α) (entries : Keyed κ α) (k : κ) :
    (file before key a entries).lookup k = if k = key then some a else entries.lookup k := by
  have cons (name : κ) (b : α) (rest : List (κ × α)) :
      List.lookup k ((name, b) :: rest) = if k = name then some b else rest.lookup k := by
    by_cases h : k = name
    · simp [h]
    · simp [List.lookup_cons, beq_eq_false_iff_ne.mpr h, h]
  induction entries with
  | nil => rw [file, cons]
  | cons entry rest ih =>
    obtain ⟨name, b⟩ := entry
    simp only [file]
    split
    · next hn => subst hn; simp only [cons]; split <;> rfl
    · next hn =>
      split
      · simp only [cons]
      · simp only [cons, ih]
        split
        · next h => rw [if_neg (h ▸ hn)]
        · rfl

/-- The order of names: character by character. -/
def byName (s t : String) : Bool :=
  s < t

end Keyed

end SqlMaps
