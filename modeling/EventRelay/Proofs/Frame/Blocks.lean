import EventRelay.Proofs.Frame.Refinement
import EventRelay.Proofs.Text.Utf8

namespace EventRelay.Reference

/-!
# Written segments

A body that is written segment by segment, each followed by a blank line, is
cut into these segments again, provided that no blank line comes earlier.
That is so for a segment that is written as lines of which none is empty.
-/

/-- Whether the blank line that follows a segment is the first one. -/
def IsWhole (segment : List UInt8) : Prop :=
  cut? (segment ++ blankLine) = some (segment, [])

/-- A body of whole segments is cut into them, and nothing is left. -/
theorem segments_flatMap
    {written : List (List UInt8)}
    (whole : ∀ segment ∈ written, IsWhole segment) :
    segments (written.flatMap (· ++ blankLine)) = written ∧
      tail (written.flatMap (· ++ blankLine)) = [] := by
  induction written with
  | nil =>
      exact ⟨segments_of_uncut rfl, tail_of_uncut rfl⟩
  | cons segment later inductionHypothesis =>
      obtain ⟨wholeFirst, wholeLater⟩ := List.forall_mem_cons.mp whole
      obtain ⟨cutLater, nothing⟩ := inductionHypothesis wholeLater
      have cuts := cut?_append wholeFirst (later.flatMap (· ++ blankLine))
      rw [List.nil_append] at cuts
      rw [List.flatMap_cons, segments_of_cut cuts, tail_of_cut cuts, cutLater]
      exact ⟨rfl, nothing⟩

/-- Bytes without a line feed are no part of a blank line. -/
theorem cut?_append_of_clear
    {bytes : List UInt8}
    (clear : 10 ∉ bytes)
    (rest : List UInt8) :
    cut? (bytes ++ rest) =
      (cut? rest).map fun (segment, after) => (bytes ++ segment, after) := by
  induction bytes with
  | nil =>
      simp
  | cons byte bytes inductionHypothesis =>
      rw [List.mem_cons, not_or] at clear
      obtain ⟨notFeed, clearRest⟩ := clear
      have notBlank : ¬blankLine <+: byte :: (bytes ++ rest) := by
        rintro ⟨more, shape⟩
        exact notFeed (List.cons.inj shape).1
      rw [List.cons_append, cut?_cons notBlank,
        inductionHypothesis clearRest, Option.map_map]
      rfl

/-- A single line feed is no blank line. -/
private theorem cut?_cons_of_single
    {byte : UInt8}
    (notFeed : byte ≠ 10)
    (rest : List UInt8) :
    cut? (10 :: byte :: rest) =
      (cut? (byte :: rest)).map fun (segment, after) =>
        (10 :: segment, after) := by
  refine cut?_cons ?_
  rintro ⟨more, shape⟩
  simp only [blankLine, List.cons_append, List.cons.injEq] at shape
  exact notFeed shape.2.1.symm

/-- A line that goes before a whole segment is part of a whole segment. -/
theorem IsWhole.cons_line
    {line bytes : List UInt8}
    {byte : UInt8}
    (whole : IsWhole (byte :: bytes))
    (notFeed : byte ≠ 10)
    (clear : 10 ∉ line) :
    IsWhole (line ++ 10 :: byte :: bytes) := by
  rw [IsWhole, List.append_assoc, cut?_append_of_clear clear]
  change (cut? (10 :: byte :: (bytes ++ blankLine))).map _ = _
  rw [cut?_cons_of_single notFeed]
  change ((cut? (byte :: bytes ++ blankLine)).map _).map _ = _
  rw [whole]
  rfl

open Text.Utf8 (encode encode_append)

/-- A text without a line feed has no byte of a line feed. -/
theorem not_mem_encode
    {text : List Char}
    (clear : '\n' ∉ text) :
    10 ∉ encode text :=
  fun member => clear (Text.Utf8.newline_mem_of_mem_encode member)

/-- The bytes of a text begin with a line feed only if the text does. -/
private theorem exists_encode_cons
    {character : Char}
    (notFeed : character ≠ '\n')
    (text : List Char) :
    ∃ byte bytes, encode (character :: text) = byte :: bytes ∧ byte ≠ 10 := by
  cases bytes : Text.Utf8.encodeChar character with
  | nil =>
      exact (Text.Utf8.encodeChar_ne_nil character bytes).elim
  | cons byte more =>
      refine ⟨byte, more ++ encode text, ?_, ?_⟩
      · rw [encode, List.flatMap_cons, bytes]
        rfl
      · rintro rfl
        have member : 10 ∈ encode [character] := by
          rw [encode, List.flatMap_cons, bytes]
          exact List.mem_cons_self
        exact notFeed
          (List.mem_singleton.mp
            (Text.Utf8.newline_mem_of_mem_encode member)).symm

/-- Lines of which none is empty begin as the first of them. -/
private theorem exists_intercalate_cons
    {first : List Char}
    (filled : first ≠ [])
    (clear : '\n' ∉ first)
    (later : List (List Char)) :
    ∃ character text,
      ['\n'].intercalate (first :: later) = character :: text ∧
        character ≠ '\n' := by
  obtain ⟨character, rest, rfl⟩ := List.exists_cons_of_ne_nil filled
  have notFeed : character ≠ '\n' := fun same =>
    clear (same ▸ List.mem_cons_self)
  cases later with
  | nil =>
      exact ⟨character, rest, List.intercalate_singleton, notFeed⟩
  | cons second later =>
      exact ⟨character, _, by rw [List.intercalate_cons_cons]; rfl, notFeed⟩

/-- Lines of which none is empty are written as a whole segment. -/
theorem isWhole_of_lines
    {lines : List (List Char)}
    (filled : ∀ line ∈ lines, line ≠ [])
    (clear : ∀ line ∈ lines, '\n' ∉ line) :
    IsWhole (encode (['\n'].intercalate lines)) := by
  induction lines with
  | nil =>
      rfl
  | cons first later inductionHypothesis =>
      obtain ⟨filledFirst, filledLater⟩ := List.forall_mem_cons.mp filled
      obtain ⟨clearFirst, clearLater⟩ := List.forall_mem_cons.mp clear
      cases later with
      | nil =>
          rw [List.intercalate_singleton, IsWhole,
            cut?_append_of_clear (not_mem_encode clearFirst)]
          simp [blankLine, cut?]
      | cons second later =>
          -- The next line is not empty, so one line feed stands between them.
          have wholeLater := inductionHypothesis filledLater clearLater
          obtain ⟨character, text, shape, notFeed⟩ :=
            exists_intercalate_cons (filledLater second List.mem_cons_self)
              (clearLater second List.mem_cons_self) later
          obtain ⟨byte, bytes, written, notByte⟩ :=
            exists_encode_cons notFeed text
          have joined :
              encode (['\n'].intercalate (first :: second :: later)) =
                encode first ++ 10 :: byte :: bytes := by
            rw [List.intercalate_cons_cons, shape, encode_append,
              encode_append, written, List.append_assoc]
            rfl
          rw [shape, written] at wholeLater
          rw [joined]
          exact wholeLater.cons_line notByte (not_mem_encode clearFirst)

end EventRelay.Reference

namespace EventRelay.Decoder

/-- A decoder from which all frames are taken decodes the whole body. -/
private theorem feedAll_of_all
    (limit : Nat)
    {feedings : List Feeding}
    (all : ∀ feeding ∈ feedings, feeding.asked = none) :
    ((new limit).feedAll feedings).1 =
        Reference.frames (feedings.flatMap Feeding.chunk) ∧
      ((new limit).feedAll feedings).2.buffer =
        Reference.tail (feedings.flatMap Feeding.chunk) := by
  have begins : (new limit).Follows [] [] := .refl (.new limit)
  obtain ⟨removed, follows, frames⟩ := begins.feedAll feedings
  rw [List.nil_append, List.nil_append] at follows
  have uncut :
      Reference.cut? ((new limit).feedAll feedings).2.buffer = none := by
    rcases List.eq_nil_or_concat feedings with rfl | ⟨earlier, last, rfl⟩
    · rfl
    · rw [List.concat_eq_append] at all ⊢
      obtain ⟨before, followsEarlier, -⟩ := begins.feedAll earlier
      obtain ⟨-, -, -, uncutLast⟩ :=
        followsEarlier.searched.follows_taken last
      rw [feedAll_concat]
      exact uncutLast (followsEarlier.searched.exhausts_of_all
        (all last (List.mem_append_right _ (List.mem_singleton_self last))))
  obtain ⟨allRemoved, isTail⟩ := follows.of_uncut uncut
  rw [← frames, allRemoved]
  exact ⟨rfl, isTail⟩

/-- However they are cut into chunks, whole segments are decoded as such. -/
theorem feedAll_of_whole
    (limit : Nat)
    {feedings : List Feeding}
    (all : ∀ feeding ∈ feedings, feeding.asked = none)
    {written : List (List UInt8)}
    (whole : ∀ segment ∈ written, Reference.IsWhole segment)
    (cut :
      feedings.flatMap Feeding.chunk =
        written.flatMap (· ++ Reference.blankLine)) :
    ((new limit).feedAll feedings).1 = written.filterMap Frame.ofSegment? ∧
      ((new limit).feedAll feedings).2.buffer = [] := by
  obtain ⟨frames, held⟩ := feedAll_of_all limit all
  obtain ⟨segments, nothing⟩ := Reference.segments_flatMap whole
  rw [frames, held, cut, Reference.frames, segments, nothing]
  exact ⟨rfl, rfl⟩

end EventRelay.Decoder
