import SqlMaps.Markup.Forest

/-! Template sources: where the events of a template come from.

A source may refuse to be opened. Once opened it answers one read after another, each
with an event or a failure, and past its last answer it says that the stream has
ended, as often as it is asked. A `Feed` has an answer to every read, and need never
end. -/
namespace SqlMaps.Template

/-- What one read gives. -/
abbrev Answer := Except Markup.Error Markup.Event

/-- A template to read events from. -/
inductive Source where
  | unavailable (cause : Markup.Error)
  | answering (answers : List Answer)

namespace Source

/-- A source of events, none of which fails. -/
def ofEvents (events : List Markup.Event) : Source :=
  .answering (events.map .ok)

/-- A source of the events of a tree. -/
def ofForest (forest : Markup.Forest) : Source :=
  ofEvents forest.events

/-- A source of events whose read number `n`, counted from zero, fails. -/
def failingAt (events : List Markup.Event) (n : Nat) (cause : Markup.Error) : Source :=
  .answering ((List.range n).map (fun i => .ok (events.getD i .endOfStream)) ++ [.error cause])

end Source

/-- What a source answers: whether it opens, and then to one read after another, without end. -/
structure Feed where
  opening : Except Markup.Error Unit
  answer : Nat → Answer

/-- One contact with a source, and what it answers. -/
inductive Contact where
  | opening (result : Except Markup.Error Unit)
  | read (answer : Answer)
  | closing

namespace Contact

def isRead : Contact → Bool
  | read _ => true
  | _ => false

def isClosing : Contact → Bool
  | closing => true
  | _ => false

end Contact

end SqlMaps.Template
