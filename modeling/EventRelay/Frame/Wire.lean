import EventRelay.Frame.Decoder

namespace EventRelay.Frame

/-!
# Written frames

A frame is written as one event: identifier, name, and a line per payload
line, ended by a blank line.
-/

/-- One field line. -/
def fieldLine (label value : List Char) : List Char :=
  label ++ ' ' :: value ++ ['\n']

/-- The line of an optional field. -/
def optionalLine (label : List Char) (value : Option String) : List Char :=
  match value with
  | none =>
      []
  | some value =>
      fieldLine label value.toList

/-- A line for each line of a payload. -/
def payloadLines (payload : List Char) : List Char :=
  (Text.splitWhere (· == '\n') payload).flatMap (fieldLine Segment.dataLabel)

/-- The written form of a frame. -/
def encode (frame : Frame) : List Char :=
  optionalLine Segment.idLabel frame.id ++
    optionalLine Segment.eventLabel frame.event ++
    payloadLines frame.data.toList ++ ['\n']

/-- The bytes of the written form. -/
def encodeBytes (frame : Frame) : List UInt8 :=
  Text.Utf8.encode frame.encode

/-- The frames a new decoder finds in the written form. -/
def decodeBack (frame : Frame) : List Frame :=
  Decoder.decodeAll defaultMaxBuffer frame.encodeBytes

/-- Whether the written form is read back as exactly this frame. -/
def survives (frame : Frame) : Bool :=
  frame.decodeBack == [frame]

end EventRelay.Frame
