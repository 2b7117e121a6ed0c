import EventRelay.Frame.Basic
import EventRelay.Text.Split
import EventRelay.Text.Utf8

namespace EventRelay

/-!
# Segments

A segment is the bytes of one event without the blank line that ends it.  It
is decoded as a whole, split into lines, and read for three fields.  Of each
field the first line wins; empty payload lines do not count.
-/

namespace Segment

/-- What follows a label at the start of a list. -/
def afterLabel? [DecidableEq α] : List α → List α → Option (List α)
  | [], items =>
      some items
  | _ :: _, [] =>
      none
  | expected :: label, item :: items =>
      if expected = item then
        afterLabel? label items
      else
        none

/-- Removes one leading blank. -/
def dropOne [DecidableEq α] (blank : α) : List α → List α
  | [] =>
      []
  | item :: items =>
      if item = blank then
        items
      else
        item :: items

/-- The value of a line that starts with a label; one blank may precede it. -/
def fieldValue? [DecidableEq α] (label : List α) (blank : α) (line : List α) :
    Option (List α) :=
  (afterLabel? label line).map (dropOne blank)

/-- How a payload line starts. -/
def dataLabel : List Char :=
  ['d', 'a', 't', 'a', ':']

/-- How a name line starts. -/
def eventLabel : List Char :=
  ['e', 'v', 'e', 'n', 't', ':']

/-- How an identifier line starts. -/
def idLabel : List Char :=
  ['i', 'd', ':']

/-- The fields found in the lines read so far. -/
structure Fields where
  event : Option (List Char)
  id : Option (List Char)
  data : Option (List Char)
  deriving Repr, DecidableEq

namespace Fields

/-- No field found yet. -/
def empty : Fields :=
  ⟨none, none, none⟩

/-- Reads one line. -/
def readLine (fields : Fields) (line : List Char) : Fields :=
  match fieldValue? dataLabel ' ' line with
  | some [] =>
      fields
  | some payload =>
      { fields with data := fields.data.or (some payload) }
  | none =>
      match fieldValue? eventLabel ' ' line with
      | some name =>
          { fields with event := fields.event.or (some name) }
      | none =>
          match fieldValue? idLabel ' ' line with
          | some identifier =>
              { fields with id := fields.id.or (some identifier) }
          | none =>
              fields

/-- The frame of the fields, if there was a payload. -/
def toFrame? (fields : Fields) : Option Frame :=
  fields.data.map fun payload =>
    ⟨fields.event.map String.ofList,
      fields.id.map String.ofList,
      String.ofList payload⟩

end Fields

/-- The lines of a segment's text. -/
def lines (text : List Char) : List (List Char) :=
  Text.splitWhere isLineBreak text

end Segment

namespace Frame

/-- The frame of a segment's text. -/
def ofText? (text : List Char) : Option Frame :=
  ((Segment.lines text).foldl Segment.Fields.readLine .empty).toFrame?

/-- The frame of a segment; comments and empty events have none. -/
def ofSegment? (segment : List UInt8) : Option Frame :=
  ofText? (Text.Utf8.decodeLossy segment)

end Frame

end EventRelay
