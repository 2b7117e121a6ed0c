import EventRelay.Frame.Segment

namespace EventRelay

/-!
# Incremental decoding

A decoder holds the bytes that have arrived and were not yet taken as part of
a complete segment.  It remembers where the search for the next blank line
resumes, so that bytes are not searched again after each chunk.
-/

/-- The limit of a decoder for which none is chosen: one mebibyte. -/
def defaultMaxBuffer : Nat :=
  1048576

/-- Bytes waiting to be decoded. -/
structure Decoder where
  /-- What has arrived and is not yet part of a taken segment. -/
  buffer : List UInt8
  /-- No blank line starts below this offset. -/
  scanFrom : Nat
  /-- Longest unterminated tail accepted. -/
  limit : Nat
  deriving Repr, DecidableEq

/-- An unterminated tail longer than the limit. -/
structure FrameTooLarge where
  buffered : Nat
  limit : Nat
  deriving Repr, DecidableEq

namespace FrameTooLarge

/-- The text of the error. -/
def message (error : FrameTooLarge) : String :=
  s!"unterminated event of {error.buffered} bytes exceeds limit of {error.limit} bytes"

end FrameTooLarge

namespace Decoder

/-- A decoder that has seen nothing. -/
def new (limit : Nat) : Decoder :=
  ⟨[], 0, limit⟩

/-- Appends a chunk without decoding it. -/
def feed (decoder : Decoder) (chunk : List UInt8) : Decoder :=
  { decoder with buffer := decoder.buffer ++ chunk }

/-- The number of bytes waiting. -/
def buffered (decoder : Decoder) : Nat :=
  decoder.buffer.length

/-- Fails when the waiting bytes exceed the limit. -/
def checkCapacity (decoder : Decoder) : Except FrameTooLarge Unit :=
  if decoder.limit < decoder.buffered then
    .error ⟨decoder.buffered, decoder.limit⟩
  else
    .ok ()

/-- Forgets the waiting bytes. -/
def reset (decoder : Decoder) : Decoder :=
  new decoder.limit

/-- The offset of the first blank line, counted from a given number. -/
def delimiterFrom? (offset : Nat) : List UInt8 → Option Nat
  | first :: second :: rest =>
      if first = 10 ∧ second = 10 then
        some offset
      else
        delimiterFrom? (offset + 1) (second :: rest)
  | _ =>
      none

/-- Where the first complete segment ends, searched from the known offset. -/
def segmentEnd? (decoder : Decoder) : Option Nat :=
  delimiterFrom? decoder.scanFrom (decoder.buffer.drop decoder.scanFrom)

/-- Takes the first complete segment, or remembers how far it searched. -/
def takeSegment (decoder : Decoder) : Option (List UInt8) × Decoder :=
  match decoder.segmentEnd? with
  | some ending =>
      (some (decoder.buffer.take ending),
        { decoder with
          buffer := decoder.buffer.drop (ending + 2)
          scanFrom := 0 })
  | none =>
      (none, { decoder with scanFrom := decoder.buffered - 1 })

/-- A delimiter lies inside the list it was found in. -/
theorem delimiterFrom?_bound
    {offset found : Nat}
    {bytes : List UInt8}
    (finds : delimiterFrom? offset bytes = some found) :
    offset ≤ found ∧ found + 2 ≤ offset + bytes.length := by
  fun_induction delimiterFrom? offset bytes with
  | case1 offset first second rest delimiter =>
      simp only [Option.some.injEq] at finds
      subst finds
      simp
  | case2 offset first second rest notDelimiter inductionHypothesis =>
      have bounds := inductionHypothesis finds
      simp only [List.length_cons] at bounds ⊢
      omega
  | case3 offset bytes short =>
      simp at finds

/-- Taking a segment leaves fewer bytes. -/
theorem takeSegment_shorter
    {decoder rest : Decoder}
    {segment : List UInt8}
    (takes : decoder.takeSegment = (some segment, rest)) :
    rest.buffer.length < decoder.buffer.length := by
  unfold takeSegment at takes
  split at takes
  next ending found =>
    simp only [Prod.mk.injEq] at takes
    obtain ⟨-, rfl⟩ := takes
    have bounds := delimiterFrom?_bound found
    simp only [List.length_drop] at bounds ⊢
    omega
  next =>
    simp at takes

/-- Takes segments up to the first one that holds a frame. -/
def next (decoder : Decoder) : Option Frame × Decoder :=
  match _taken : decoder.takeSegment with
  | (none, rest) =>
      (none, rest)
  | (some segment, rest) =>
      match Frame.ofSegment? segment with
      | some frame =>
          (some frame, rest)
      | none =>
          rest.next
termination_by decoder.buffer.length
decreasing_by exact takeSegment_shorter _taken

/-- Takes at most a number of frames, after frames already taken. -/
def pullOnto (pulled : List Frame) : Nat → Decoder → List Frame × Decoder
  | 0, decoder =>
      (pulled.reverse, decoder)
  | count + 1, decoder =>
      match decoder.next with
      | (none, rest) =>
          (pulled.reverse, rest)
      | (some frame, rest) =>
          pullOnto (frame :: pulled) count rest

/-- Takes at most a number of frames. -/
def pull (decoder : Decoder) (count : Nat) : List Frame × Decoder :=
  pullOnto [] count decoder

/-- Takes every complete frame; each one uses up waiting bytes. -/
def pullAll (decoder : Decoder) : List Frame × Decoder :=
  decoder.pull (decoder.buffered + 1)

/-- The frames of a whole body. -/
def decodeAll (limit : Nat) (body : List UInt8) : List Frame :=
  (((new limit).feed body).pullAll).1

end Decoder

end EventRelay
