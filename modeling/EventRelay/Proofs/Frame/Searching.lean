import EventRelay.Frame.Feeding
import EventRelay.Proofs.Frame.Cutting

namespace EventRelay.Decoder

/-!
# Resuming the search

A decoder does not search its bytes again.  The offset at which it resumes
stays one byte short of the end, since the last byte may be the first half of
a blank line.  As long as no blank line starts below the offset, resuming
there finds what a search from the beginning would find.
-/

open Reference (blankLine cut?)

/-- The offset of the search can be relied on. -/
structure Searched (decoder : Decoder) : Prop where
  /-- The offset leaves out the last byte. -/
  inside : decoder.scanFrom ≤ decoder.buffer.length - 1
  /-- No blank line starts below the offset. -/
  clear : ∀ index < decoder.scanFrom, ¬blankLine <+: decoder.buffer.drop index

/-- The search for a blank line is the cut of a body, told by its length. -/
theorem delimiterFrom?_eq (offset : Nat) (bytes : List UInt8) :
    delimiterFrom? offset bytes =
      (cut? bytes).map fun pieces => offset + pieces.1.length := by
  fun_induction delimiterFrom? offset bytes with
  | case1 offset first second rest delimiter =>
      obtain ⟨rfl, rfl⟩ := delimiter
      simp [cut?]
  | case2 offset first second rest notDelimiter inductionHypothesis =>
      have notBlank : ¬blankLine <+: first :: second :: rest := by
        simpa [blankLine, eq_comm] using notDelimiter
      rw [inductionHypothesis, Reference.cut?_cons notBlank, Option.map_map]
      congr 1
      funext pieces
      simp only [Function.comp_apply, List.length_cons]
      omega
  | case3 bytes offset short =>
      have uncut : cut? bytes = none := by
        rw [Reference.cut?_eq_none_iff]
        rintro ⟨before, after, shape⟩
        cases before with
        | nil =>
            exact short 10 10 after shape.symm
        | cons byte before =>
            cases before with
            | nil =>
                exact short byte 10 (10 :: after) shape.symm
            | cons second before =>
                exact short byte second (before ++ blankLine ++ after)
                  shape.symm
      rw [uncut]
      rfl

namespace Searched

/-- A new decoder has searched nothing. -/
theorem new (limit : Nat) : (Decoder.new limit).Searched where
  inside := Nat.zero_le _
  clear _ below := absurd below (Nat.not_lt_zero _)

theorem scanFrom_le {decoder : Decoder} (searched : decoder.Searched) :
    decoder.scanFrom ≤ decoder.buffer.length :=
  Nat.le_trans searched.inside (Nat.sub_le _ _)

/-- The search from the offset finds the first blank line of all bytes. -/
theorem segmentEnd?_eq
    {decoder : Decoder}
    (searched : decoder.Searched) :
    decoder.segmentEnd? =
      (cut? decoder.buffer).map (·.1.length) := by
  have inside := searched.scanFrom_le
  rw [segmentEnd?, delimiterFrom?_eq,
    Reference.cut?_of_clear inside searched.clear, Option.map_map]
  congr 1
  funext pieces
  simp [Nat.min_eq_left inside]

/-- If there is a blank line, the bytes before the first one are taken. -/
theorem takeSegment_of_cut
    {decoder : Decoder}
    (searched : decoder.Searched)
    {segment after : List UInt8}
    (cuts : cut? decoder.buffer = some (segment, after)) :
    decoder.takeSegment =
      (some segment, { decoder with buffer := after, scanFrom := 0 }) := by
  have ending : decoder.segmentEnd? = some segment.length := by
    rw [searched.segmentEnd?_eq, cuts]
    rfl
  have shape : decoder.buffer = segment ++ (blankLine ++ after) := by
    rw [← List.append_assoc]
    exact Reference.eq_of_cut? cuts
  have dropped : decoder.buffer.drop (segment.length + 2) = after := by
    rw [shape, ← List.drop_drop, List.drop_left]
    rfl
  rw [takeSegment, ending]
  simp only [dropped]
  rw [shape, List.take_left]

/-- If there is none, the search goes on at the last byte. -/
theorem takeSegment_of_uncut
    {decoder : Decoder}
    (searched : decoder.Searched)
    (uncut : cut? decoder.buffer = none) :
    decoder.takeSegment =
      (none, { decoder with scanFrom := decoder.buffered - 1 }) := by
  have noEnding : decoder.segmentEnd? = none := by
    rw [searched.segmentEnd?_eq, uncut]
    rfl
  rw [takeSegment, noEnding]

/-- New bytes cannot complete a blank line that starts below the offset. -/
theorem feed
    {decoder : Decoder}
    (searched : decoder.Searched)
    (chunk : List UInt8) :
    (decoder.feed chunk).Searched where
  inside := by
    have inside := searched.inside
    simp only [Decoder.feed, List.length_append]
    omega
  clear := by
    intro index below startsBlank
    have inside := searched.inside
    change index < decoder.scanFrom at below
    change blankLine <+: (decoder.buffer ++ chunk).drop index at startsBlank
    have enough : blankLine.length ≤ (decoder.buffer.drop index).length := by
      simp only [blankLine, List.length_cons, List.length_nil,
        List.length_drop]
      omega
    rw [List.drop_append_of_le_length (by omega)] at startsBlank
    exact searched.clear index below
      (List.prefix_of_prefix_length_le startsBlank
        (List.prefix_append _ chunk) enough)

/-- Taking a segment leaves an offset that can be relied on. -/
theorem takeSegment
    {decoder : Decoder}
    (searched : decoder.Searched) :
    decoder.takeSegment.2.Searched := by
  cases cuts : cut? decoder.buffer with
  | some pieces =>
      obtain ⟨segment, after⟩ := pieces
      rw [searched.takeSegment_of_cut cuts]
      exact ⟨Nat.zero_le _, fun _ below => absurd below (Nat.not_lt_zero _)⟩
  | none =>
      rw [searched.takeSegment_of_uncut cuts]
      refine ⟨Nat.le_refl _, ?_⟩
      intro index _ startsBlank
      exact Reference.cut?_eq_none_iff.mp cuts
        (startsBlank.isInfix.trans (List.drop_suffix index _).isInfix)

end Searched

end EventRelay.Decoder
