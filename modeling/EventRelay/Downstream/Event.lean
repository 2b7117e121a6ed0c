import EventRelay.Frame.Basic

namespace EventRelay.Downstream

/-!
# Delivered events

What a consumer is sent: a name, and a payload in which every line break is
followed by a new payload label.
-/

/-- The name of every relayed event. -/
def messageName : String :=
  "message"

/-- What is written when no event came for a while: a comment. -/
def keepAlive : List Char :=
  [':', '\n', '\n']

/-- An event for a consumer. -/
structure Event where
  name : String
  payload : String
  deriving Repr, DecidableEq

namespace Event

/-- How a payload line starts. -/
def payloadLabel : List Char :=
  ['d', 'a', 't', 'a', ':', ' ']

/-- A payload with a label after every line break. -/
def relabel (payload : List Char) : List Char :=
  payload.flatMap fun character =>
    if isLineBreak character then
      character :: payloadLabel
    else
      [character]

/-- The written payload; an empty payload is not written. -/
def payloadText (payload : List Char) : List Char :=
  if payload.isEmpty then
    []
  else
    payloadLabel ++ relabel payload ++ ['\n']

/-- The written form of an event. -/
def render (event : Event) : List Char :=
  ['e', 'v', 'e', 'n', 't', ':', ' '] ++ event.name.toList ++ ['\n'] ++
    payloadText event.payload.toList ++ ['\n']

end Event

end EventRelay.Downstream
