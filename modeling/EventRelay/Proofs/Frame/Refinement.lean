import EventRelay.Proofs.Frame.Searching

namespace EventRelay

/-!
# Incremental decoding is decoding at once

Whatever the chunks are, and however many frames are taken after each of them,
the segments that left a decoder are the first ones of all bytes it was fed,
and the bytes it holds are what follows them.  Once fewer frames come than
were asked for, every complete segment has left.
-/

open Reference (blankLine cut?)

namespace Decoder

/--
After a decoder was fed bytes, the removed segments have left it and the
others are still there.
-/
structure Follows
    (decoder : Decoder)
    (fed : List UInt8)
    (removed : List (List UInt8)) : Prop where
  searched : decoder.Searched
  segments :
    Reference.segments fed = removed ++ Reference.segments decoder.buffer
  tail : Reference.tail fed = Reference.tail decoder.buffer

namespace Follows

theorem refl
    {decoder : Decoder}
    (searched : decoder.Searched) :
    decoder.Follows decoder.buffer [] :=
  ⟨searched, rfl, rfl⟩

/-- Segments removed later come after segments removed before. -/
theorem trans
    {decoder rest : Decoder}
    {fed : List UInt8}
    {removed more : List (List UInt8)}
    (before : decoder.Follows fed removed)
    (after : rest.Follows decoder.buffer more) :
    rest.Follows fed (removed ++ more) where
  searched := after.searched
  segments := by
    rw [before.segments, after.segments, List.append_assoc]
  tail := before.tail.trans after.tail

/-- New bytes remove no segment. -/
theorem feed
    {decoder : Decoder}
    {fed : List UInt8}
    {removed : List (List UInt8)}
    (follows : decoder.Follows fed removed)
    (chunk : List UInt8) :
    (decoder.feed chunk).Follows (fed ++ chunk) removed where
  searched := follows.searched.feed chunk
  segments := by
    change _ = removed ++ Reference.segments (decoder.buffer ++ chunk)
    rw [Reference.segments_append, follows.segments, follows.tail,
      List.append_assoc, ← Reference.segments_append]
  tail := by
    change _ = Reference.tail (decoder.buffer ++ chunk)
    rw [Reference.tail_append, follows.tail, ← Reference.tail_append]

/-- The bytes fed are the removed segments and the bytes still held. -/
theorem fed_eq
    {decoder : Decoder}
    {fed : List UInt8}
    {removed : List (List UInt8)}
    (follows : decoder.Follows fed removed) :
    fed = removed.flatMap (· ++ blankLine) ++ decoder.buffer := by
  calc
    fed = (Reference.segments fed).flatMap (· ++ blankLine) ++
        Reference.tail fed :=
      (Reference.flatMap_segments_append_tail fed).symm
    _ = removed.flatMap (· ++ blankLine) ++
        ((Reference.segments decoder.buffer).flatMap (· ++ blankLine) ++
          Reference.tail decoder.buffer) := by
      rw [follows.segments, follows.tail, List.flatMap_append,
        List.append_assoc]
    _ = removed.flatMap (· ++ blankLine) ++ decoder.buffer := by
      rw [Reference.flatMap_segments_append_tail]

/-- The frames taken are the first frames of the bytes fed. -/
theorem frames_eq
    {decoder : Decoder}
    {fed : List UInt8}
    {removed : List (List UInt8)}
    (follows : decoder.Follows fed removed) :
    Reference.frames fed =
      removed.filterMap Frame.ofSegment? ++
        Reference.frames decoder.buffer := by
  rw [Reference.frames, follows.segments, List.filterMap_append,
    Reference.frames]

/-- Without a blank line among the bytes held, all segments have left. -/
theorem of_uncut
    {decoder : Decoder}
    {fed : List UInt8}
    {removed : List (List UInt8)}
    (follows : decoder.Follows fed removed)
    (uncut : cut? decoder.buffer = none) :
    removed = Reference.segments fed ∧
      decoder.buffer = Reference.tail fed := by
  constructor
  · rw [follows.segments, Reference.segments_of_uncut uncut,
      List.append_nil]
  · rw [follows.tail, Reference.tail_of_uncut uncut]

end Follows

theorem next_of_none
    {decoder rest : Decoder}
    (takes : decoder.takeSegment = (none, rest)) :
    decoder.next = (none, rest) := by
  rw [next]
  split
  · next same =>
      rw [takes] at same
      cases same
      rfl
  · next same =>
      rw [takes] at same
      cases same

/-- A segment with a frame gives that frame. -/
theorem next_of_frame
    {decoder rest : Decoder}
    {segment : List UInt8}
    {frame : Frame}
    (takes : decoder.takeSegment = (some segment, rest))
    (parses : Frame.ofSegment? segment = some frame) :
    decoder.next = (some frame, rest) := by
  rw [next]
  split
  · next same =>
      rw [takes] at same
      cases same
  · next same =>
      rw [takes] at same
      cases same
      simp [parses]

/-- A segment without a frame is passed over. -/
theorem next_of_comment
    {decoder rest : Decoder}
    {segment : List UInt8}
    (takes : decoder.takeSegment = (some segment, rest))
    (noFrame : Frame.ofSegment? segment = none) :
    decoder.next = rest.next := by
  rw [next]
  split
  · next same =>
      rw [takes] at same
      cases same
  · next same =>
      rw [takes] at same
      cases same
      simp [noFrame]

/-- Looking for a frame leaves no more bytes, and a frame uses some up. -/
theorem length_next_le (decoder : Decoder) :
    decoder.next.2.buffer.length + decoder.next.1.toList.length ≤
      decoder.buffer.length := by
  induction decoder using next.induct with
  | case1 decoder rest takes =>
      rw [next_of_none takes]
      unfold takeSegment at takes
      split at takes
      · simp at takes
      · cases takes
        exact Nat.le_refl _
  | case2 decoder segment rest takes frame parses =>
      rw [next_of_frame takes parses]
      exact takeSegment_shorter takes
  | case3 decoder segment rest takes noFrame inductionHypothesis =>
      rw [next_of_comment takes noFrame]
      exact Nat.le_trans inductionHypothesis
        (Nat.le_of_lt (takeSegment_shorter takes))

/-- A taken segment has left the decoder. -/
private theorem Searched.follows_takeSegment
    {decoder rest : Decoder}
    (searched : decoder.Searched)
    {segment : List UInt8}
    (takes : decoder.takeSegment = (some segment, rest)) :
    rest.Follows decoder.buffer [segment] := by
  have restSearched : rest.Searched := by
    simpa [takes] using searched.takeSegment
  cases cuts : cut? decoder.buffer with
  | some pieces =>
      obtain ⟨found, after⟩ := pieces
      rw [searched.takeSegment_of_cut cuts] at takes
      simp only [Prod.mk.injEq, Option.some.injEq] at takes
      obtain ⟨rfl, rfl⟩ := takes
      exact ⟨restSearched, Reference.segments_of_cut cuts,
        Reference.tail_of_cut cuts⟩
  | none =>
      rw [searched.takeSegment_of_uncut cuts] at takes
      simp at takes

/-- If no segment was taken, there is none. -/
private theorem Searched.follows_of_none
    {decoder rest : Decoder}
    (searched : decoder.Searched)
    (takes : decoder.takeSegment = (none, rest)) :
    rest.Follows decoder.buffer [] ∧ cut? rest.buffer = none := by
  have restSearched : rest.Searched := by
    simpa [takes] using searched.takeSegment
  cases cuts : cut? decoder.buffer with
  | some pieces =>
      rw [searched.takeSegment_of_cut cuts] at takes
      simp at takes
  | none =>
      rw [searched.takeSegment_of_uncut cuts] at takes
      simp only [Prod.mk.injEq, true_and] at takes
      subst takes
      exact ⟨⟨restSearched, rfl, rfl⟩, cuts⟩

/-- The next frame is that of the last segment removed for it. -/
theorem Searched.follows_next
    {decoder : Decoder}
    (searched : decoder.Searched) :
    ∃ removed,
      decoder.next.2.Follows decoder.buffer removed ∧
        removed.filterMap Frame.ofSegment? = decoder.next.1.toList ∧
        (decoder.next.1 = none → cut? decoder.next.2.buffer = none) := by
  -- Segments without a frame are removed on the way, one per recursion.
  induction decoder using next.induct with
  | case1 decoder rest takes =>
      obtain ⟨follows, uncut⟩ := searched.follows_of_none takes
      rw [next_of_none takes]
      exact ⟨[], follows, rfl, fun _ => uncut⟩
  | case2 decoder segment rest takes frame parses =>
      have follows := searched.follows_takeSegment takes
      rw [next_of_frame takes parses]
      exact ⟨[segment], follows, by simp [parses], by simp⟩
  | case3 decoder segment rest takes noFrame inductionHypothesis =>
      have follows := searched.follows_takeSegment takes
      obtain ⟨removed, later, frames, uncut⟩ :=
        inductionHypothesis follows.searched
      rw [next_of_comment takes noFrame]
      exact ⟨segment :: removed, follows.trans later,
        by simpa [noFrame] using frames, uncut⟩

/-- Frames already taken do not matter for those still to be taken. -/
private theorem pullOnto_eq
    (pulled : List Frame)
    (count : Nat)
    (decoder : Decoder) :
    pullOnto pulled count decoder =
      (pulled.reverse ++ (decoder.pull count).1, (decoder.pull count).2) := by
  induction count generalizing pulled decoder with
  | zero =>
      simp [pull, pullOnto]
  | succ count inductionHypothesis =>
      rw [pull, pullOnto, pullOnto]
      rcases decoder.next with ⟨found, rest⟩
      cases found with
      | none =>
          simp
      | some frame =>
          simp only [inductionHypothesis (frame :: pulled),
            inductionHypothesis [frame]]
          simp

/-- Taking one frame more begins with the next frame. -/
theorem pull_succ (decoder : Decoder) (count : Nat) :
    decoder.pull (count + 1) =
      match decoder.next with
      | (none, rest) =>
          ([], rest)
      | (some frame, rest) =>
          (frame :: (rest.pull count).1, (rest.pull count).2) := by
  rw [pull, pullOnto]
  rcases decoder.next with ⟨found, rest⟩
  cases found with
  | none =>
      rfl
  | some frame =>
      change pullOnto [frame] count rest = _
      rw [pullOnto_eq]
      rfl

/-- Taken frames are those of the removed segments, in order. -/
theorem Searched.follows_pull
    {decoder : Decoder}
    (searched : decoder.Searched)
    (count : Nat) :
    ∃ removed,
      (decoder.pull count).2.Follows decoder.buffer removed ∧
        removed.filterMap Frame.ofSegment? = (decoder.pull count).1 ∧
        ((decoder.pull count).1.length < count →
          cut? (decoder.pull count).2.buffer = none) := by
  induction count generalizing decoder with
  | zero =>
      exact ⟨[], .refl searched, rfl,
        fun below => absurd below (Nat.not_lt_zero _)⟩
  | succ count inductionHypothesis =>
      obtain ⟨removed, follows, frames, uncut⟩ := searched.follows_next
      rw [pull_succ]
      cases found : decoder.next with
      | mk result rest =>
          rw [found] at follows frames uncut
          cases result with
          | none =>
              exact ⟨removed, follows, frames, fun _ => uncut rfl⟩
          | some frame =>
              obtain ⟨later, laterFollows, laterFrames, laterUncut⟩ :=
                inductionHypothesis follows.searched
              refine ⟨removed ++ later, follows.trans laterFollows, ?_, ?_⟩
              · rw [List.filterMap_append, frames, laterFrames]
                rfl
              · intro fewer
                exact laterUncut (Nat.lt_of_succ_lt_succ fewer)

/-- Every segment takes up bytes. -/
private theorem length_le_flatMap_blankLine (removed : List (List UInt8)) :
    removed.length ≤ (removed.flatMap (· ++ blankLine)).length := by
  induction removed with
  | nil =>
      exact Nat.le_refl _
  | cons segment later inductionHypothesis =>
      have width : blankLine.length = 2 := rfl
      simp only [List.flatMap_cons, List.length_append, List.length_cons]
      omega

/-- Every frame uses up bytes, so that few bytes give few frames. -/
theorem Searched.length_pull_le
    {decoder : Decoder}
    (searched : decoder.Searched)
    (count : Nat) :
    (decoder.pull count).1.length ≤ decoder.buffered := by
  obtain ⟨removed, follows, frames, -⟩ := searched.follows_pull count
  have fewer : (decoder.pull count).1.length ≤ removed.length := by
    rw [← frames]
    exact List.length_filterMap_le _ _
  have shape := congrArg List.length follows.fed_eq
  have atLeast := length_le_flatMap_blankLine removed
  simp only [List.length_append] at shape
  simp only [buffered]
  omega

private theorem takeSegment_limit (decoder : Decoder) :
    decoder.takeSegment.2.limit = decoder.limit := by
  rw [takeSegment]
  split <;> rfl

theorem next_limit (decoder : Decoder) :
    decoder.next.2.limit = decoder.limit := by
  induction decoder using next.induct with
  | case1 decoder rest takes =>
      rw [next_of_none takes, ← takeSegment_limit decoder, takes]
  | case2 decoder segment rest takes frame parses =>
      rw [next_of_frame takes parses, ← takeSegment_limit decoder, takes]
  | case3 decoder segment rest takes noFrame inductionHypothesis =>
      rw [next_of_comment takes noFrame, inductionHypothesis,
        ← takeSegment_limit decoder, takes]

private theorem pull_limit (decoder : Decoder) (count : Nat) :
    (decoder.pull count).2.limit = decoder.limit := by
  induction count generalizing decoder with
  | zero =>
      rfl
  | succ count inductionHypothesis =>
      have nextLimit := next_limit decoder
      rw [pull_succ]
      rcases found : decoder.next with ⟨result, rest⟩
      rw [found] at nextLimit
      cases result with
      | none =>
          exact nextLimit
      | some frame =>
          exact (inductionHypothesis rest).trans nextLimit

/-- A feeding takes the first frames of the bytes that are there then. -/
theorem Searched.follows_taken
    {decoder : Decoder}
    (searched : decoder.Searched)
    (feeding : Feeding) :
    ∃ removed,
      (feeding.taken decoder).2.Follows
          (decoder.buffer ++ feeding.chunk) removed ∧
        removed.filterMap Frame.ofSegment? = (feeding.taken decoder).1 ∧
        (feeding.exhausts decoder = true →
          cut? (feeding.taken decoder).2.buffer = none) := by
  obtain ⟨removed, follows, frames, uncut⟩ :=
    (searched.feed feeding.chunk).follows_pull (feeding.amount decoder)
  refine ⟨removed, follows, frames, ?_⟩
  intro exhausts
  exact uncut (of_decide_eq_true exhausts)

/-- Asking for all frames is asking for more than there are. -/
theorem Searched.exhausts_of_all
    {decoder : Decoder}
    (searched : decoder.Searched)
    {feeding : Feeding}
    (all : feeding.asked = none) :
    feeding.exhausts decoder = true := by
  have amount :
      feeding.amount decoder =
        (decoder.feed feeding.chunk).buffered + 1 := by
    rw [Feeding.amount, all]
    rfl
  have bound :=
    (searched.feed feeding.chunk).length_pull_le (feeding.amount decoder)
  apply decide_eq_true
  rw [Feeding.taken, amount] at *
  omega

/-- Feedings one after another take the first frames of all their bytes. -/
theorem Follows.feedAll
    {decoder : Decoder}
    {fed : List UInt8}
    {removed : List (List UInt8)}
    (follows : decoder.Follows fed removed)
    (feedings : List Feeding) :
    ∃ more,
      (decoder.feedAll feedings).2.Follows
          (fed ++ feedings.flatMap Feeding.chunk) (removed ++ more) ∧
        more.filterMap Frame.ofSegment? = (decoder.feedAll feedings).1 := by
  induction feedings generalizing decoder fed removed with
  | nil =>
      exact ⟨[], by simpa [Decoder.feedAll] using follows, rfl⟩
  | cons feeding later inductionHypothesis =>
      obtain ⟨first, taken, firstFrames, -⟩ :=
        follows.searched.follows_taken feeding
      have fedFirst :
          (feeding.taken decoder).2.Follows
            (fed ++ feeding.chunk) (removed ++ first) :=
        (follows.feed feeding.chunk).trans taken
      obtain ⟨rest, followsRest, restFrames⟩ :=
        inductionHypothesis fedFirst
      refine ⟨first ++ rest, ?_, ?_⟩
      · simpa [Decoder.feedAll, List.append_assoc] using followsRest
      · rw [List.filterMap_append, firstFrames, restFrames]
        rfl

theorem feedAll_concat
    (decoder : Decoder)
    (earlier : List Feeding)
    (last : Feeding) :
    decoder.feedAll (earlier ++ [last]) =
      ((decoder.feedAll earlier).1 ++
          (last.taken (decoder.feedAll earlier).2).1,
        (last.taken (decoder.feedAll earlier).2).2) := by
  induction earlier generalizing decoder with
  | nil =>
      simp [feedAll]
  | cons first later inductionHypothesis =>
      simp [feedAll, inductionHypothesis, List.append_assoc]

/-- No use of a decoder changes its limit. -/
private theorem useAll_limit (decoder : Decoder) (uses : List Use) :
    (decoder.useAll uses).limit = decoder.limit := by
  induction uses generalizing decoder with
  | nil =>
      rfl
  | cons first later inductionHypothesis =>
      have firstLimit : (decoder.use first).limit = decoder.limit := by
        cases first with
        | feed feeding =>
            exact pull_limit (decoder.feed feeding.chunk) _
        | check =>
            rfl
        | reset =>
            rfl
      exact (inductionHypothesis (decoder.use first)).trans firstLimit

/--
A decoder that begins anew, whatever it was used for, is a new decoder.  From
then on the frames taken are the first frames of the bytes fed; these bytes
are the removed segments, each with its blank line, and the bytes still held;
and after a feeding that exhausts the decoder, as asking for all frames does,
the frames are those of all bytes fed and the bytes held are their tail.
-/
theorem decoding_refines_reference
    (limit : Nat)
    (uses : List Use)
    (feedings : List Feeding) :
    let start := ((new limit).useAll uses).reset
    let fed := feedings.flatMap Feeding.chunk
    let (frames, decoder) := start.feedAll feedings
    start = new limit ∧
      frames <+: Reference.frames fed ∧
      (∃ removed,
        removed <+: Reference.segments fed ∧
          removed.filterMap Frame.ofSegment? = frames ∧
          fed = removed.flatMap (· ++ blankLine) ++ decoder.buffer) ∧
      (∀ earlier last, feedings = earlier ++ [last] →
        (last.asked = none →
          last.exhausts (start.feedAll earlier).2 = true) ∧
        (last.exhausts (start.feedAll earlier).2 = true →
          frames = Reference.frames fed ∧
            decoder.buffer = Reference.tail fed ∧
            ¬blankLine <:+: decoder.buffer)) := by
  intro start fed
  have startsNew : start = new limit := by
    change new ((new limit).useAll uses).limit = new limit
    rw [useAll_limit]
    rfl
  have begins : start.Follows [] [] := by
    rw [startsNew]
    exact .refl (.new limit)
  obtain ⟨removed, follows, frames⟩ := begins.feedAll feedings
  simp only [List.nil_append] at follows
  refine ⟨startsNew, ?_, ⟨removed, ?_, frames, follows.fed_eq⟩, ?_⟩
  · exact ⟨_, by rw [← frames, ← follows.frames_eq]⟩
  · exact ⟨_, follows.segments.symm⟩
  · rintro earlier last rfl
    obtain ⟨before, followsEarlier, -⟩ := begins.feedAll earlier
    refine ⟨followsEarlier.searched.exhausts_of_all, ?_⟩
    intro exhausts
    obtain ⟨-, -, -, uncutLast⟩ :=
      followsEarlier.searched.follows_taken last
    have uncut :
        cut? (start.feedAll (earlier ++ [last])).2.buffer = none := by
      rw [feedAll_concat]
      exact uncutLast exhausts
    obtain ⟨allRemoved, isTail⟩ := follows.of_uncut uncut
    refine ⟨?_, isTail, Reference.cut?_eq_none_iff.mp uncut⟩
    rw [← frames, allRemoved]
    rfl

end Decoder

end EventRelay
