import EventRelay.Frame.Rounds
import EventRelay.Proofs.Frame.Refinement

namespace EventRelay

/-!
# The offset of the search

Whatever is done with a decoder, its offset lies inside the buffer and no
blank line starts below it.  So the search never cuts outside the buffer, it
finds the first blank line, and every search for a frame is over after as many
rounds as there are blank lines to be taken, which are two bytes each.
-/

open Reference (blankLine cut?)

namespace Reference

/-- No blank line starts before a cut. -/
private theorem clear_of_cut?
    {body segment after : List UInt8}
    (cuts : cut? body = some (segment, after)) :
    ∀ index < segment.length, ¬blankLine <+: body.drop index := by
  induction body using cut?.induct generalizing segment after with
  | case1 rest =>
      simp only [cut?, Option.some.injEq, Prod.mk.injEq] at cuts
      obtain ⟨rfl, -⟩ := cuts
      exact fun _ below => absurd below (Nat.not_lt_zero _)
  | case2 =>
      simp [cut?] at cuts
  | case3 byte rest notDelimiter inductionHypothesis =>
      have notBlank : ¬blankLine <+: byte :: rest := by
        rintro ⟨later, shape⟩
        obtain ⟨rfl, rfl⟩ := List.cons.inj shape
        exact notDelimiter later rfl rfl
      rw [cut?_cons notBlank] at cuts
      simp only [Option.map_eq_some_iff, Prod.mk.injEq, Prod.exists] at cuts
      obtain ⟨inner, outer, restCuts, rfl, rfl⟩ := cuts
      intro index below
      cases index with
      | zero =>
          exact notBlank
      | succ index =>
          exact inductionHypothesis restCuts index
            (Nat.lt_of_succ_lt_succ below)

/-- A cut is made where the first blank line starts, and only there. -/
theorem length_of_cut?_eq_some_iff
    {body : List UInt8}
    {index : Nat} :
    (cut? body).map (·.1.length) = some index ↔
      blankLine <+: body.drop index ∧
        ∀ earlier < index, ¬blankLine <+: body.drop earlier := by
  constructor
  · intro found
    simp only [Option.map_eq_some_iff, Prod.exists] at found
    obtain ⟨segment, after, cuts, rfl⟩ := found
    refine ⟨⟨after, ?_⟩, clear_of_cut? cuts⟩
    rw [eq_of_cut? cuts, List.append_assoc, List.drop_left]
  · rintro ⟨⟨after, shape⟩, clear⟩
    have inside : index ≤ body.length := by
      have lengths := congrArg List.length shape
      simp only [blankLine, List.length_append, List.length_cons,
        List.length_nil, List.length_drop] at lengths
      omega
    rw [cut?_of_clear inside clear, ← shape]
    simp [blankLine, cut?, Nat.min_eq_left inside]

end Reference

namespace Decoder

namespace Searched

variable {decoder : Decoder}

/-- A step leaves an offset that can be relied on. -/
theorem step (searched : decoder.Searched) (step : Step) :
    (decoder.step step).Searched := by
  cases step with
  | feed chunk =>
      exact searched.feed chunk
  | search =>
      exact searched.takeSegment
  | next =>
      obtain ⟨removed, follows, -⟩ := searched.follows_next
      exact follows.searched
  | check =>
      exact searched
  | reset =>
      exact .new decoder.limit

private theorem stepAll (searched : decoder.Searched) (steps : List Step) :
    (decoder.stepAll steps).Searched := by
  induction steps generalizing decoder with
  | nil =>
      exact searched
  | cons step later inductionHypothesis =>
      exact inductionHypothesis (searched.step step)

/-- Resuming the search finds what a search from the beginning finds. -/
theorem segmentEnd?_eq_from_start (searched : decoder.Searched) :
    decoder.segmentEnd? = delimiterFrom? 0 decoder.buffer := by
  rw [searched.segmentEnd?_eq, delimiterFrom?_eq]
  simp

/-- No cut lies outside the buffer. -/
theorem takeSegmentInside?_eq (searched : decoder.Searched) :
    decoder.takeSegmentInside? = some decoder.takeSegment := by
  have inside := searched.scanFrom_le
  cases found : decoder.segmentEnd? with
  | some ending =>
      have bounds := delimiterFrom?_bound found
      rw [List.length_drop] at bounds
      have endsInside : ending + 2 ≤ decoder.buffer.length := by
        omega
      rw [Decoder.takeSegment, found]
      rw [segmentEnd?] at found
      simp [takeSegmentInside?, sliceFrom?, inside, found, endsInside]
  | none =>
      rw [Decoder.takeSegment, found]
      rw [segmentEnd?] at found
      simp [takeSegmentInside?, sliceFrom?, inside, found]

/-- A taken segment takes a blank line with it. -/
private theorem buffered_of_taken
    (searched : decoder.Searched)
    {segment : List UInt8}
    {rest : Decoder}
    (takes : decoder.takeSegment = (some segment, rest)) :
    rest.buffered + 2 ≤ decoder.buffered := by
  cases cuts : cut? decoder.buffer with
  | some pieces =>
      obtain ⟨found, after⟩ := pieces
      rw [searched.takeSegment_of_cut cuts] at takes
      obtain ⟨-, rfl⟩ := Prod.mk.inj takes
      rw [buffered, buffered, Reference.eq_of_cut? cuts]
      simp only [blankLine, List.length_append, List.length_cons,
        List.length_nil]
      omega
  | none =>
      rw [searched.takeSegment_of_uncut cuts] at takes
      simp at takes

/-- A search is over after a round for every two bytes and one more. -/
private theorem nextWithin?_eq
    (searched : decoder.Searched)
    {rounds : Nat}
    (enough : decoder.buffered / 2 < rounds) :
    decoder.nextWithin? rounds = some decoder.next := by
  induction rounds generalizing decoder with
  | zero =>
      exact absurd enough (Nat.not_lt_zero _)
  | succ rounds inductionHypothesis =>
      rw [nextWithin?, searched.takeSegmentInside?_eq]
      cases taken : decoder.takeSegment with
      | mk result rest =>
          cases result with
          | none =>
              rw [next_of_none taken]
              rfl
          | some segment =>
              have shorter := searched.buffered_of_taken taken
              have restSearched : rest.Searched := by
                simpa [taken] using searched.takeSegment
              cases parses : Frame.ofSegment? segment with
              | some frame =>
                  rw [next_of_frame taken parses]
                  simp [parses]
              | none =>
                  rw [next_of_comment taken parses,
                    ← inductionHypothesis restSearched (by omega)]
                  simp [parses]

end Searched

/--
After any steps, between the rounds of a search as well as between calls, the
offset is inside the buffer and no blank line starts below it.  A search from
the offset is a search from the beginning and finds the first blank line.
Nothing is cut outside the buffer, and the search for a frame comes to an end.
-/
theorem search_can_resume (limit : Nat) (steps : List Step) :
    let decoder := (new limit).stepAll steps
    decoder.scanFrom ≤ decoder.buffer.length ∧
    (∀ index < decoder.scanFrom,
      ¬blankLine <+: decoder.buffer.drop index) ∧
    decoder.segmentEnd? = delimiterFrom? 0 decoder.buffer ∧
    (∀ index, decoder.segmentEnd? = some index ↔
      blankLine <+: decoder.buffer.drop index ∧
        ∀ earlier < index, ¬blankLine <+: decoder.buffer.drop earlier) ∧
    decoder.takeSegmentInside? = some decoder.takeSegment ∧
    decoder.nextWithin? (decoder.buffered / 2 + 1) = some decoder.next := by
  intro decoder
  have searched : decoder.Searched := (Searched.new limit).stepAll steps
  refine ⟨searched.scanFrom_le, searched.clear,
    searched.segmentEnd?_eq_from_start, ?_, searched.takeSegmentInside?_eq,
    searched.nextWithin?_eq (Nat.lt_succ_self _)⟩
  intro index
  rw [searched.segmentEnd?_eq]
  exact Reference.length_of_cut?_eq_some_iff

/--
A blank line whose halves come in two chunks is found by the second search,
which leaves out the first byte.
-/
example :
    let decoder := (new 8).stepAll [.feed [97, 10], .search, .feed [10]]
    decoder.scanFrom = 1 ∧ decoder.segmentEnd? = some 1 := by
  decide

end Decoder

end EventRelay
