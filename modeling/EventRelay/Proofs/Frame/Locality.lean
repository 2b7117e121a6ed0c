import EventRelay.Frame.Reference
import EventRelay.Proofs.Frame.Fields
import EventRelay.Proofs.Text.Scanning

namespace EventRelay.Reference

/-!
# Segments are read line by line

A segment is decoded as a whole before it is split into lines, yet nothing
passes from one line to another.  Line breaks, labels and the blank after a
label are bytes below 0x80, and decoding can be cut at such bytes.  Hence the
lines can be found first, and only the values need to be decoded.
-/

open Text (splitWhere splitOnce?)
open Text.Utf8 (encode decodeLossy)

private theorem isLineByte_iff {byte : UInt8} :
    isLineByte byte = true ↔ byte.toNat = 10 ∨ byte.toNat = 13 := by
  simp [isLineByte, ← UInt8.toNat_inj]

private theorem isLineBreak_iff {character : Char} :
    isLineBreak character = true ↔
      character.toNat = 10 ∨ character.toNat = 13 := by
  simp [isLineBreak, ← Char.toNat_inj]

/-- Bytes without a line byte are decoded as one line. -/
private theorem isLine_decodeLossy
    {bytes : List UInt8}
    (clear : ∀ byte ∈ bytes, isLineByte byte = false) :
    IsLine (decodeLossy bytes) := by
  intro character member
  apply eq_false_of_ne_true
  intro breaks
  rw [isLineBreak_iff] at breaks
  have small : character.toNat < 0x80 := by
    omega
  have found := clear _ (Text.Utf8.byte_mem_of_mem_decodeLossy member small)
  have isLineByte : isLineByte character.toNat.toUInt8 = true := by
    rwa [isLineByte_iff, Text.Utf8.toNat_toUInt8 (by omega)]
  rw [found] at isLineByte
  contradiction

/-- The lines of what is decoded are the decoded lines. -/
theorem lines_decodeLossy (segment : List UInt8) :
    Segment.lines (decodeLossy segment) =
      (splitWhere isLineByte segment).map decodeLossy := by
  cases cut : splitOnce? isLineByte segment with
  | none =>
      have clear := Text.splitOnce?_eq_none_iff.mp cut
      rw [Text.splitWhere_of_clear clear]
      exact Text.splitWhere_of_clear (isLine_decodeLossy clear)
  | some parts =>
      obtain ⟨line, rest⟩ := parts
      obtain ⟨clear, separator, separating, rfl⟩ :=
        Text.splitOnce?_eq_some_iff.mp cut
      have number := isLineByte_iff.mp separating
      have breaks : isLineBreak (Char.ofNat separator.toNat) = true := by
        rcases number with feed | carriage
        · rw [feed]
          rfl
        · rw [carriage]
          rfl
      rw [Text.splitWhere_append_cons clear separating, List.map_cons,
        Text.Utf8.decodeLossy_append_cons (by omega)]
      have split := Text.splitWhere_append_cons (isLine_decodeLossy clear)
        breaks (decodeLossy rest)
      exact split.trans (congrArg _ (lines_decodeLossy rest))
termination_by segment.length
decreasing_by
  subst_vars
  simp only [List.length_append, List.length_cons]
  omega

/-- A character below 0x80 is found first if its byte is. -/
theorem exists_decodeLossy_cons_of_single
    {expected : Char}
    (single : expected.toNat < 0x80)
    (byte : UInt8)
    (rest : List UInt8) :
    ∃ character more,
      decodeLossy (byte :: rest) = character :: more ∧
        (expected = character ↔ expected.toNat.toUInt8 = byte) ∧
        (expected = character → more = decodeLossy rest) := by
  obtain ⟨character, more, shape, ⟨number, isRest⟩ | ⟨wide, large⟩⟩ :=
    Text.Utf8.exists_decodeLossy_cons byte rest
  · refine ⟨character, more, shape, ?_, fun _ => isRest⟩
    rw [← Char.toNat_inj, ← UInt8.toNat_inj,
      Text.Utf8.toNat_toUInt8 (by omega), number]
  · have otherCharacter : expected ≠ character := by
      rintro rfl
      omega
    have otherByte : expected.toNat.toUInt8 ≠ byte := by
      rintro rfl
      rw [Text.Utf8.toNat_toUInt8 (by omega)] at large
      omega
    exact ⟨character, more, shape, iff_of_false otherCharacter otherByte,
      fun same => (otherCharacter same).elim⟩

variable {label : List Char}

/-- What follows a label is decoded on its own. -/
private theorem afterLabel?_decodeLossy
    (single : ∀ expected ∈ label, expected.toNat < 0x80)
    (line : List UInt8) :
    Segment.afterLabel? label (decodeLossy line) =
      (Segment.afterLabel? (encode label) line).map decodeLossy := by
  induction label generalizing line with
  | nil =>
      rfl
  | cons expected label inductionHypothesis =>
      obtain ⟨first, later⟩ := List.forall_mem_cons.mp single
      have bytes :
          encode (expected :: label) =
            expected.toNat.toUInt8 :: encode label := by
        rw [encode, List.flatMap_cons, Text.Utf8.encodeChar_of_single first]
        rfl
      rw [bytes]
      cases line with
      | nil =>
          rfl
      | cons byte rest =>
          obtain ⟨character, more, shape, same, isRest⟩ :=
            exists_decodeLossy_cons_of_single first byte rest
          rw [shape, Segment.afterLabel?, Segment.afterLabel?]
          by_cases found : expected = character
          · rw [if_pos found, if_pos (same.mp found), isRest found]
            exact inductionHypothesis later rest
          · rw [if_neg found, if_neg (mt same.mpr found)]
            rfl

/-- One blank is dropped before or after decoding. -/
private theorem dropOne_decodeLossy (value : List UInt8) :
    Segment.dropOne ' ' (decodeLossy value) =
      decodeLossy (Segment.dropOne 32 value) := by
  have isSingle : ' '.toNat < 0x80 := by
    decide
  cases value with
  | nil =>
      rfl
  | cons byte rest =>
      obtain ⟨character, more, shape, same, isRest⟩ :=
        exists_decodeLossy_cons_of_single isSingle byte rest
      replace same : ' ' = character ↔ 32 = byte :=
        same
      rw [shape, Segment.dropOne, Segment.dropOne]
      by_cases found : ' ' = character
      · rw [if_pos found.symm, if_pos (same.mp found).symm, isRest found]
      · rw [if_neg (Ne.symm found), if_neg (Ne.symm (mt same.mpr found)),
          shape]

private theorem fieldValue?_decodeLossy
    (single : ∀ expected ∈ label, expected.toNat < 0x80)
    (line : List UInt8) :
    Segment.fieldValue? label ' ' (decodeLossy line) =
      (Segment.fieldValue? (encode label) 32 line).map decodeLossy := by
  rw [Segment.fieldValue?, Segment.fieldValue?, afterLabel?_decodeLossy single,
    Option.map_map, Option.map_map]
  exact congrArg (Option.map · _) (funext dropOne_decodeLossy)

/-- The values in what is decoded are the decoded values. -/
theorem valuesOf_lines_decodeLossy
    (single : ∀ expected ∈ label, expected.toNat < 0x80)
    (segment : List UInt8) :
    Segment.valuesOf label ' ' (Segment.lines (decodeLossy segment)) =
      (values label segment).map decodeLossy := by
  rw [Segment.valuesOf, lines_decodeLossy, List.filterMap_map, values,
    List.map_filterMap]
  exact congrArg (List.filterMap · _)
    (funext (fieldValue?_decodeLossy single))

private theorem single_of_mem_dataLabel :
    ∀ expected ∈ Segment.dataLabel, expected.toNat < 0x80 := by
  simp [Segment.dataLabel]

private theorem single_of_mem_eventLabel :
    ∀ expected ∈ Segment.eventLabel, expected.toNat < 0x80 := by
  simp [Segment.eventLabel]

private theorem single_of_mem_idLabel :
    ∀ expected ∈ Segment.idLabel, expected.toNat < 0x80 := by
  simp [Segment.idLabel]

/-- The first value that is not empty is so before and after decoding. -/
private theorem find?_map_decodeLossy (found : List (List UInt8)) :
    (found.map decodeLossy).find? (!·.isEmpty) =
      (found.find? (!·.isEmpty)).map decodeLossy := by
  have filled :
      ((!·.isEmpty) ∘ decodeLossy) = fun value : List UInt8 => !value.isEmpty := by
    funext value
    rw [Function.comp_apply, Bool.eq_iff_iff]
    simp
  rw [List.find?_map, filled]

/--
A segment that is decoded as a whole is read as if its lines were found first.
-/
private theorem ofSegment?_eq (segment : List UInt8) :
    Frame.ofSegment? segment = frameOfLines? segment := by
  rw [Frame.ofSegment?, Frame.ofText?_eq,
    valuesOf_lines_decodeLossy single_of_mem_dataLabel,
    valuesOf_lines_decodeLossy single_of_mem_eventLabel,
    valuesOf_lines_decodeLossy single_of_mem_idLabel,
    find?_map_decodeLossy, List.head?_map, List.head?_map, frameOfLines?]
  simp only [Option.map_map]
  rfl

/-- A line that does not start with a label adds no value to it. -/
private theorem values_eq_of_lines
    {segment other : List UInt8}
    {before after : List (List UInt8)}
    {line changed : List UInt8}
    (lines : splitWhere isLineByte segment = before ++ line :: after)
    (otherLines : splitWhere isLineByte other = before ++ changed :: after)
    (unlabelled : ¬encode label <+: line)
    (stillUnlabelled : ¬encode label <+: changed) :
    values label segment = values label other := by
  rw [values, values, lines, otherLines, List.filterMap_append,
    List.filterMap_append,
    List.filterMap_cons_none (Segment.fieldValue?_eq_none_iff.mpr unlabelled),
    List.filterMap_cons_none
      (Segment.fieldValue?_eq_none_iff.mpr stillUnlabelled)]

/--
Every segment is read as its lines say, of which only the values are decoded.
It holds no frame exactly if no payload line has a value.  A payload that is
well-formed UTF-8 keeps its bytes.  A line that is changed, to whatever bytes,
changes no field with whose label it starts neither before nor after.
-/
theorem segments_are_read_line_by_line (segment : List UInt8) :
    Frame.ofSegment? segment = frameOfLines? segment ∧
      (Frame.ofSegment? segment = none ↔
        ∀ payload ∈ values Segment.dataLabel segment, payload = []) ∧
      (∀ frame ∈ Frame.ofSegment? segment, ∀ text : List Char,
        (values Segment.dataLabel segment).find? (!·.isEmpty) =
            some (encode text) →
          Text.Utf8.bytesOf frame.data = encode text) ∧
      ∀ (other : List UInt8) (before after : List (List UInt8))
        (line changed : List UInt8),
        splitWhere isLineByte segment = before ++ line :: after →
        splitWhere isLineByte other = before ++ changed :: after →
        (¬encode Segment.dataLabel <+: line →
          ¬encode Segment.dataLabel <+: changed →
          (Frame.ofSegment? segment).map Frame.data =
            (Frame.ofSegment? other).map Frame.data) ∧
        ∀ frame ∈ Frame.ofSegment? segment,
          ∀ same ∈ Frame.ofSegment? other,
            (¬encode Segment.eventLabel <+: line →
              ¬encode Segment.eventLabel <+: changed →
              frame.event = same.event) ∧
            (¬encode Segment.idLabel <+: line →
              ¬encode Segment.idLabel <+: changed →
              frame.id = same.id) := by
  refine ⟨ofSegment?_eq segment, ?nothing, ?kept, ?apart⟩
  case nothing =>
    rw [ofSegment?_eq, frameOfLines?, Option.map_eq_none_iff,
      List.find?_eq_none]
    simp
  case kept =>
    intro frame reads text first
    rw [ofSegment?_eq, frameOfLines?, first] at reads
    obtain rfl := Option.some.inj reads
    simp [textOf, Text.Utf8.bytesOf, Text.Utf8.decodeLossy_encode]
  case apart =>
    intro other before after line changed lines otherLines
    rw [ofSegment?_eq, ofSegment?_eq]
    constructor
    · intro unlabelled stillUnlabelled
      rw [frameOfLines?, frameOfLines?,
        values_eq_of_lines lines otherLines unlabelled stillUnlabelled,
        Option.map_map, Option.map_map]
      rfl
    · intro frame reads same readsSame
      obtain ⟨payload, -, rfl⟩ := Option.map_eq_some_iff.mp reads
      obtain ⟨otherPayload, -, rfl⟩ := Option.map_eq_some_iff.mp readsSame
      constructor
      · intro unlabelled stillUnlabelled
        dsimp only
        rw [values_eq_of_lines lines otherLines unlabelled stillUnlabelled]
      · intro unlabelled stillUnlabelled
        dsimp only
        rw [values_eq_of_lines lines otherLines unlabelled stillUnlabelled]

/-- A name that breaks off within a character leaves the payload alone. -/
example :
    Frame.ofSegment? (Text.Utf8.bytesOf "event:" ++ [0xE2, 0x82, 10] ++
        Text.Utf8.bytesOf "data: x") =
      some ⟨some "\uFFFD", none, "x"⟩ := by
  decide +kernel

end EventRelay.Reference
