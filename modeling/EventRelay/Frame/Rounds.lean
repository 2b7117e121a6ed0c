import EventRelay.Frame.Decoder

namespace EventRelay.Decoder

/-!
# Decoding in rounds

A decoder cuts its buffer at offsets that it remembers or has found, and it
searches in rounds until a segment holds a frame.  Here an offset beyond the
end of the buffer and a search that is not over after a number of rounds have
no result.
-/

/-- What may be done with a decoder, one step at a time. -/
inductive Step where
  /-- Bytes arrive. -/
  | feed (chunk : List UInt8)
  /-- The search for a frame goes one round further. -/
  | search
  /-- A frame is asked for. -/
  | next
  | check
  | reset
  deriving Repr, DecidableEq

/-- The decoder after one step. -/
def step (decoder : Decoder) : Step → Decoder
  | .feed chunk =>
      decoder.feed chunk
  | .search =>
      decoder.takeSegment.2
  | .next =>
      decoder.next.2
  | .check =>
      decoder
  | .reset =>
      decoder.reset

/-- The decoder after one step and another. -/
def stepAll (decoder : Decoder) (steps : List Step) : Decoder :=
  steps.foldl step decoder

/-- What a list holds from an offset on; there is nothing beyond its end. -/
def sliceFrom? (offset : Nat) (items : List α) : Option (List α) :=
  if offset ≤ items.length then
    some (items.drop offset)
  else
    none

/-- Takes the first complete segment, unless a cut lies outside the buffer. -/
def takeSegmentInside? (decoder : Decoder) :
    Option (Option (List UInt8) × Decoder) := do
  let unsearched ← sliceFrom? decoder.scanFrom decoder.buffer
  match delimiterFrom? decoder.scanFrom unsearched with
  | some ending =>
      let rest ← sliceFrom? (ending + 2) decoder.buffer
      return (some (decoder.buffer.take ending),
        { decoder with buffer := rest, scanFrom := 0 })
  | none =>
      return (none, { decoder with scanFrom := decoder.buffered - 1 })

/--
The search for a frame, if it is over after a number of rounds and no cut lies
outside the buffer.
-/
def nextWithin? : Nat → Decoder → Option (Option Frame × Decoder)
  | 0, _ =>
      none
  | rounds + 1, decoder => do
      match ← decoder.takeSegmentInside? with
      | (none, rest) =>
          return (none, rest)
      | (some segment, rest) =>
          match Frame.ofSegment? segment with
          | some frame =>
              return (some frame, rest)
          | none =>
              nextWithin? rounds rest

end EventRelay.Decoder
