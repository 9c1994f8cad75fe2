import SqlMaps.Markup.Event

/-! Streams: events read one at a time, until the stream is closed.

Past its last event a stream goes on answering that it has ended. An end of stream
may also stand among the events, and is handed out like any other. -/
namespace SqlMaps.Markup

/-- The events that are left, and whether the stream is closed. -/
structure Stream where
  pending : List Event
  isClosed : Bool
  deriving DecidableEq

namespace Stream

/-- A stream of the events. -/
def ofEvents (events : List Event) : Stream :=
  ⟨events, false⟩

/-- The next event, and the stream after it. -/
def next (s : Stream) : Except Error Event × Stream :=
  if s.isClosed then (.error .closed, s)
  else match s.pending with
    | [] => (.ok .endOfStream, s)
    | event :: rest => (.ok event, { s with pending := rest })

/-- The stream closed, with what was left given up. -/
def close (_ : Stream) : Stream :=
  ⟨[], true⟩

end Stream

end SqlMaps.Markup
