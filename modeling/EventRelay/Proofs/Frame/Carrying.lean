import EventRelay.Proofs.Frame.RoundTrip
import Mathlib.Tactic.TFAE

namespace EventRelay

/-!
# What events can carry

The frames that come out of a decoder are those that can be written and read
back: a payload that is not empty, and no line break in any field.  One
direction is kept by every line that is read, whatever the bytes are; the other
is the round trip of a written frame.
-/

namespace Decoder

/-- Whatever bytes are fed, what comes out is what an event can carry. -/
theorem carriable_of_mem_feedAll
    {limit : Nat}
    {feedings : List Feeding}
    {frame : Frame}
    (member : frame ∈ ((new limit).feedAll feedings).1) :
    frame.Carriable := by
  have begins : (new limit).Follows [] [] := .refl (.new limit)
  obtain ⟨removed, -, frames⟩ := begins.feedAll feedings
  rw [← frames] at member
  obtain ⟨segment, -, reads⟩ := List.mem_filterMap.mp member
  exact Frame.carriable_of_ofSegment? reads

/-- Decoding a body at once is feeding it in one chunk. -/
theorem decodeAll_eq_feedAll (limit : Nat) (body : List UInt8) :
    decodeAll limit body = ((new limit).feedAll [⟨body, none⟩]).1 := by
  simp [decodeAll, feedAll, Feeding.taken, Feeding.amount, pullAll]

/-- A whole segment is decoded as its frame, if it has one. -/
theorem decodeAll_of_whole
    (limit : Nat)
    {segment : List UInt8}
    (whole : Reference.IsWhole segment) :
    decodeAll limit (segment ++ Reference.blankLine) =
      (Frame.ofSegment? segment).toList := by
  have wholeEach : ∀ written ∈ [segment], Reference.IsWhole written := by
    intro written member
    rw [List.mem_singleton.mp member]
    exact whole
  have cut :
      [⟨segment ++ Reference.blankLine, none⟩].flatMap Feeding.chunk =
        [segment].flatMap (· ++ Reference.blankLine) := by
    rw [List.flatMap_singleton, List.flatMap_singleton]
  obtain ⟨frames, -⟩ :=
    feedAll_of_whole limit (List.forall_mem_singleton.mpr rfl) wholeEach cut
  rw [decodeAll_eq_feedAll, frames, List.filterMap_cons]
  cases Frame.ofSegment? segment <;> rfl

end Decoder

namespace Frame

variable {frame : Frame}

/-- A frame that can be carried is the only one in its written form. -/
private theorem decodeAll_encodeBytes
    (limit : Nat)
    (carriable : frame.Carriable) :
    Decoder.decodeAll limit frame.encodeBytes = [frame] := by
  rw [encodeBytes_eq carriable,
    Decoder.decodeAll_of_whole limit (isWhole_segment carriable),
    ofSegment?_segment carriable]
  rfl

/--
For every frame the following are the same: some bytes, in some chunks, make a
decoder yield it; its payload is not empty and none of its fields holds a line
break; a new decoder reads its written form as this frame and no other.  In
particular every frame that was ever decoded survives being written and read.
-/
theorem tfae_carriable (limit readerLimit : Nat) (frame : Frame) :
    [∃ feedings, frame ∈ ((Decoder.new limit).feedAll feedings).1,
      frame.Carriable,
      Decoder.decodeAll readerLimit frame.encodeBytes = [frame]].TFAE := by
  tfae_have 1 → 2 := by
    rintro ⟨feedings, member⟩
    exact Decoder.carriable_of_mem_feedAll member
  tfae_have 2 → 3 := decodeAll_encodeBytes readerLimit
  tfae_have 3 → 2 := by
    intro readBack
    have member :
        frame ∈ ((Decoder.new readerLimit).feedAll
          [⟨frame.encodeBytes, none⟩]).1 := by
      rw [← Decoder.decodeAll_eq_feedAll, readBack]
      exact List.mem_singleton_self frame
    exact Decoder.carriable_of_mem_feedAll member
  tfae_have 2 → 1 := by
    intro carriable
    refine ⟨[⟨frame.encodeBytes, none⟩], ?_⟩
    rw [← Decoder.decodeAll_eq_feedAll, decodeAll_encodeBytes limit carriable]
    exact List.mem_singleton_self frame
  tfae_finish

/-- A blank line in an identifier cuts the written form in two. -/
example :
    Decoder.decodeAll 64 (encodeBytes ⟨none, some "1\n\n2", "x"⟩) =
      [ofPayload "x"] := by
  decide +kernel

end Frame

end EventRelay
