import EventRelay.Proofs.Frame.Blocks

namespace EventRelay.Reference

/-!
# Bodies that fit a limit

However a body is cut into chunks, what waits after a chunk is at most a tail,
or a segment with the first half of its blank line.  Hence no cutting exceeds
a limit that is greater than every segment and not less than the tail, and
some cutting exceeds every other limit.  A decoder that gets the chunks of a
body that fits gives its frames, whatever the chunks are, and never holds too
much.
-/

/-- Whether a body can be cut anywhere without exceeding a limit. -/
structure Fits (limit : Nat) (body : List UInt8) : Prop where
  segments : ∀ segment ∈ segments body, segment.length < limit
  tail : (tail body).length ≤ limit

/-- What waits for a blank line is at most a segment and half of that line. -/
private theorem length_le_of_cut?_append
    {held more segment after : List UInt8}
    (uncut : cut? held = none)
    (cuts : cut? (held ++ more) = some (segment, after)) :
    held.length ≤ segment.length + 1 := by
  have shape := eq_of_cut? cuts
  have starts : segment ++ blankLine <+: held ++ more :=
    ⟨after, shape.symm⟩
  refine Nat.le_of_not_lt fun longer => ?_
  have enough : (segment ++ blankLine).length ≤ held.length := by
    rw [List.length_append]
    exact longer
  have within : segment ++ blankLine <+: held :=
    List.prefix_of_prefix_length_le starts (List.prefix_append held more)
      enough
  exact cut?_eq_none_iff.mp uncut
    ((List.suffix_append segment blankLine).isInfix.trans within.isInfix)

/-- The first bytes of a body that fits are not too many to wait. -/
theorem Fits.length_le
    {limit : Nat}
    {held more : List UInt8}
    (fits : Fits limit (held ++ more))
    (uncut : cut? held = none) :
    held.length ≤ limit := by
  cases cuts : cut? (held ++ more) with
  | none =>
      have waiting := fits.tail
      rw [tail_of_uncut cuts, List.length_append] at waiting
      omega
  | some pieces =>
      obtain ⟨segment, after⟩ := pieces
      have among : segment ∈ Reference.segments (held ++ more) := by
        rw [segments_of_cut cuts]
        exact List.mem_cons_self
      have short := fits.segments segment among
      have most := length_le_of_cut?_append uncut cuts
      omega

section

variable {body segment after : List UInt8}
variable (cuts : cut? body = some (segment, after))

include cuts

/-- The blank line that follows a segment is the first one. -/
private theorem isWhole_of_cut? : IsWhole segment := by
  have shape := eq_of_cut? cuts
  cases again : cut? (segment ++ blankLine) with
  | none =>
      exact (cut?_eq_none_iff.mp again
        (List.suffix_append segment blankLine).isInfix).elim
  | some pieces =>
      obtain ⟨found, left⟩ := pieces
      have same := cut?_append again after
      rw [← shape, cuts] at same
      simp only [Option.some.injEq, Prod.mk.injEq,
        List.self_eq_append_left] at same
      obtain ⟨rfl, rfl⟩ := same
      exact again

/-- Half a blank line does not end a segment. -/
private theorem cut?_segment_append : cut? (segment ++ [10]) = none := by
  have shape := eq_of_cut? cuts
  cases again : cut? (segment ++ [10]) with
  | none =>
      rfl
  | some pieces =>
      obtain ⟨found, left⟩ := pieces
      have same := cut?_append again (10 :: after)
      have joined : segment ++ [10] ++ 10 :: after = body := by
        rw [shape, List.append_assoc, List.append_assoc]
        rfl
      rw [joined, cuts] at same
      simp only [Option.some.injEq, Prod.mk.injEq] at same
      have lengths := congrArg List.length same.2
      simp only [List.length_append, List.length_cons] at lengths
      omega

end

/-- A long segment is exceeded by its bytes and half of its blank line. -/
private theorem exists_long_tail_of_mem_segments
    {limit : Nat}
    {body segment : List UInt8}
    (among : segment ∈ segments body)
    (long : limit ≤ segment.length) :
    ∃ first rest, body = first ++ rest ∧ limit < (tail first).length := by
  -- If the segment is the first one, half a blank line is enough; otherwise
  -- everything up to the blank line before it is put in front.
  induction body using segments.induct with
  | case1 body uncut =>
      rw [segments_of_uncut uncut] at among
      cases among
  | case2 body earlier after cuts inductionHypothesis =>
      have shape := eq_of_cut? cuts
      rw [segments_of_cut cuts] at among
      rcases List.mem_cons.mp among with rfl | later
      · refine ⟨segment ++ [10], 10 :: after, ?_, ?_⟩
        · rw [shape, List.append_assoc, List.append_assoc]
          rfl
        · rw [tail_of_uncut (cut?_segment_append cuts), List.length_append]
          exact Nat.lt_succ_of_le long
      · obtain ⟨first, rest, rfl, longer⟩ := inductionHypothesis later
        refine ⟨earlier ++ blankLine ++ first, rest, ?_, ?_⟩
        · rw [shape, List.append_assoc _ first]
        · have cutsFirst := cut?_append (isWhole_of_cut? cuts) first
          rw [tail_of_cut cutsFirst]
          exact longer

/-- A body that does not fit exceeds the limit after some of its bytes. -/
theorem exists_long_tail
    {limit : Nat}
    {body : List UInt8}
    (exceeds : ¬Fits limit body) :
    ∃ first rest, body = first ++ rest ∧ limit < (tail first).length := by
  by_cases short : ∀ segment ∈ segments body, segment.length < limit
  · refine ⟨body, [], (List.append_nil body).symm, ?_⟩
    exact Nat.lt_of_not_le fun within => exceeds ⟨short, within⟩
  · obtain ⟨segment, short⟩ := Classical.not_forall.mp short
    obtain ⟨among, long⟩ := Classical.not_imp.mp short
    exact exists_long_tail_of_mem_segments among (Nat.le_of_not_lt long)

end EventRelay.Reference

namespace EventRelay.Decoder

open Reference (cut?)

/--
The bytes that a decoder holds, together with chunks that are still to come,
make up these frames and fit its limit.
-/
structure Yields
    (decoder : Decoder)
    (pieces : List (List UInt8))
    (frames : List Frame) : Prop where
  searched : decoder.Searched
  frames : Reference.frames (decoder.buffer ++ pieces.flatten) = frames
  fits : Reference.Fits decoder.limit (decoder.buffer ++ pieces.flatten)

/-- A new decoder yields the frames of a whole body. -/
theorem yields_new
    {limit : Nat}
    {pieces : List (List UInt8)}
    (fits : Reference.Fits limit pieces.flatten) :
    (new limit).Yields pieces (Reference.frames pieces.flatten) :=
  ⟨.new limit, rfl, fits⟩

namespace Yields

variable {decoder : Decoder}
variable {piece : List UInt8}
variable {pieces : List (List UInt8)}
variable {frames : List Frame}

/-- A chunk that comes is no longer to come. -/
theorem feed (yields : decoder.Yields (piece :: pieces) frames) :
    (decoder.feed piece).Yields pieces frames := by
  have joined :
      (decoder.feed piece).buffer ++ pieces.flatten =
        decoder.buffer ++ (piece :: pieces).flatten := by
    rw [Decoder.feed, List.flatten_cons, List.append_assoc]
  refine ⟨yields.searched.feed piece, ?_, ?_⟩
  · rw [joined]
    exact yields.frames
  · rw [joined]
    exact yields.fits

/--
The frame that is taken is the first one, and if none is taken, what is held
has no complete segment and is not too much.
-/
theorem next (yields : decoder.Yields pieces frames) :
    ∃ later,
      frames = decoder.next.1.toList ++ later ∧
        decoder.next.2.Yields pieces later ∧
        (decoder.next.1 = none →
          cut? decoder.next.2.buffer = none ∧
            decoder.next.2.checkCapacity = .ok ()) := by
  obtain ⟨removed, taken, takenFrames, uncut⟩ :=
    yields.searched.follows_next
  have follows := taken.feed pieces.flatten
  have fits :
      Reference.Fits decoder.next.2.limit
        (decoder.next.2.buffer ++ pieces.flatten) := by
    rw [next_limit]
    refine ⟨fun segment among => yields.fits.segments segment ?_, ?_⟩
    · rw [follows.segments]
      exact List.mem_append_right removed among
    · have waiting := yields.fits.tail
      rw [follows.tail] at waiting
      exact waiting
  refine ⟨Reference.frames (decoder.next.2.buffer ++ pieces.flatten), ?_,
    ⟨taken.searched, rfl, fits⟩, ?_⟩
  · rw [← yields.frames, follows.frames_eq, takenFrames]
    rfl
  · intro nothing
    have within := fits.length_le (uncut nothing)
    exact ⟨uncut nothing, if_neg (Nat.not_lt_of_le within)⟩

/-- Nothing is left to be taken once all has come and been searched. -/
theorem frames_eq_nil
    (yields : decoder.Yields [] frames)
    (uncut : cut? decoder.buffer = none) :
    frames = [] := by
  have all := yields.frames
  rw [List.flatten_nil, List.append_nil, Reference.frames,
    Reference.segments_of_uncut uncut] at all
  exact all.symm

end Yields

section

variable {decoder : Decoder}
variable (searched : decoder.Searched)
variable (exceeds : decoder.limit < (Reference.tail decoder.buffer).length)

include searched exceeds

/-- A tail that is too long stays too long when a frame is taken. -/
theorem tail_next_exceeds :
    decoder.next.2.limit <
      (Reference.tail decoder.next.2.buffer).length := by
  obtain ⟨removed, taken, -⟩ := searched.follows_next
  rw [next_limit, ← taken.tail]
  exact exceeds

/-- A tail that is too long is refused once all frames have been taken. -/
theorem checkCapacity_of_exceeds (drained : decoder.next.1 = none) :
    decoder.next.2.checkCapacity =
      .error ⟨decoder.next.2.buffered, decoder.next.2.limit⟩ := by
  obtain ⟨removed, taken, -, uncut⟩ := searched.follows_next
  have longer := tail_next_exceeds searched exceeds
  rw [Reference.tail_of_uncut (uncut drained)] at longer
  exact if_pos longer

end

end EventRelay.Decoder
