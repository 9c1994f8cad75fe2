import SqlMaps.Markup.Event

/-! Forests: markup as a tree.

A forest is a sequence of texts and elements, each element with a forest inside. Its
`events` are what a reader is handed. -/
namespace SqlMaps.Markup

/-- A sequence of texts and elements. -/
inductive Forest where
  | nil
  | text (content : String) (next : Forest)
  | element (name : String) (attributes : Attributes) (inner next : Forest)
  deriving DecidableEq, Inhabited

namespace Forest

/-- One forest after another. -/
def append : Forest → Forest → Forest
  | .nil, f => f
  | .text content next, f => .text content (next.append f)
  | .element name attributes inner next, f => .element name attributes inner (next.append f)

instance : Append Forest := ⟨append⟩

/-- The events of the forest in document order. -/
def events : Forest → List Event
  | .nil => []
  | .text content next => .text content :: next.events
  | .element name attributes inner next =>
    .start name attributes :: inner.events ++ .finish name :: next.events

@[simp] theorem nil_append (f : Forest) : Forest.nil ++ f = f := rfl

@[simp] theorem text_append (content : String) (next f : Forest) :
    Forest.text content next ++ f = .text content (next ++ f) := rfl

@[simp] theorem element_append (name : String) (attributes : Attributes)
    (inner next f : Forest) :
    Forest.element name attributes inner next ++ f = .element name attributes inner (next ++ f) :=
  rfl

theorem append_nil (f : Forest) : f ++ Forest.nil = f := by
  induction f with
  | nil => rfl
  | text _ _ ih => simp [ih]
  | element _ _ _ _ _ ih => simp [ih]

theorem append_assoc (f g h : Forest) : f ++ g ++ h = f ++ (g ++ h) := by
  induction f with
  | nil => rfl
  | text _ _ ih => simp [ih]
  | element _ _ _ _ _ ih => simp [ih]

theorem events_append (f g : Forest) : (f ++ g).events = f.events ++ g.events := by
  induction f with
  | nil => rfl
  | text _ _ ih => simp [events, ih]
  | element _ _ _ _ _ ih => simp [events, ih]

end Forest

end SqlMaps.Markup
