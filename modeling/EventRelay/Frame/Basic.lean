namespace EventRelay

/-!
# Frames

One event of a `text/event-stream` body.
-/

/-- An event: its payload, and the name and identifier that came with it. -/
structure Frame where
  /-- Value of the first `event:` line. -/
  event : Option String
  /-- Value of the first `id:` line. -/
  id : Option String
  /-- Value of the first `data:` line that is not empty. -/
  data : String
  deriving Repr, DecidableEq

namespace Frame

/-- A frame that carries a payload and nothing else. -/
def ofPayload (payload : String) : Frame :=
  ⟨none, none, payload⟩

end Frame

/-- Whether a character ends a line of an event. -/
def isLineBreak (character : Char) : Bool :=
  character == '\n' || character == '\r'

/-- Whether a text stays on one line. -/
def isSingleLine (text : String) : Bool :=
  !text.toList.any isLineBreak

end EventRelay
