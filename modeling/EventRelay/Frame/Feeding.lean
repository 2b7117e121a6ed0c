import EventRelay.Frame.Decoder

namespace EventRelay

/-!
# Using a decoder

A decoder is fed chunk by chunk.  After each chunk its user takes as many of
the complete frames as it likes and leaves the others where they are.  In
between it may check the limit, or begin anew.
-/

/-- A chunk, and how many of the complete frames are taken after it. -/
structure Feeding where
  chunk : List UInt8
  /-- How many frames are asked for; `none` asks for all. -/
  asked : Option Nat
  deriving Repr, DecidableEq

/-- What may be done with a decoder. -/
inductive Use where
  | feed (feeding : Feeding)
  | check
  | reset
  deriving Repr, DecidableEq

namespace Feeding

/-- The number of frames asked for; all frames are fewer than the bytes. -/
def amount (feeding : Feeding) (decoder : Decoder) : Nat :=
  feeding.asked.getD ((decoder.feed feeding.chunk).buffered + 1)

/-- The frames taken, and the decoder afterwards. -/
def taken (feeding : Feeding) (decoder : Decoder) : List Frame × Decoder :=
  (decoder.feed feeding.chunk).pull (feeding.amount decoder)

/-- Whether fewer frames came than were asked for. -/
def exhausts (feeding : Feeding) (decoder : Decoder) : Bool :=
  (feeding.taken decoder).1.length < feeding.amount decoder

end Feeding

namespace Decoder

/-- Feeds one chunk after another; the frames taken are collected. -/
def feedAll (decoder : Decoder) : List Feeding → List Frame × Decoder
  | [] =>
      ([], decoder)
  | feeding :: later =>
      let (frames, next) := feeding.taken decoder
      let (laterFrames, last) := next.feedAll later
      (frames ++ laterFrames, last)

/-- The decoder after one use. -/
def use (decoder : Decoder) : Use → Decoder
  | .feed feeding =>
      (feeding.taken decoder).2
  | .check =>
      decoder
  | .reset =>
      decoder.reset

/-- The decoder after one use and another. -/
def useAll (decoder : Decoder) (uses : List Use) : Decoder :=
  uses.foldl use decoder

end Decoder

end EventRelay
