import EventRelay.Frame.Wire
import EventRelay.Proofs.Frame.Blocks
import EventRelay.Proofs.Frame.Fields
import Mathlib.Data.List.Basic

namespace EventRelay

/-!
# Written frames are read back

A frame that an event can carry is written as one line per field and a blank
line.  These lines are a whole segment, which holds that frame and no other.
Hence any number of frames that are written one after another are read back,
whatever the chunks are.
-/

namespace Segment

theorem isLine_idLabel : IsLine idLabel := by
  simp [IsLine, idLabel, isLineBreak]

/-- A line with an identifier sets it unless there is one. -/
@[simp] theorem Fields.readLine_id (fields : Fields) (identifier : List Char) :
    fields.readLine (idLabel ++ ' ' :: identifier) =
      { fields with id := fields.id.or (some identifier) } := by
  have noData :
      fieldValue? dataLabel ' ' (idLabel ++ ' ' :: identifier) = none :=
    rfl
  have noEvent :
      fieldValue? eventLabel ' ' (idLabel ++ ' ' :: identifier) = none :=
    rfl
  rw [readLine, noData, noEvent, fieldValue?_append]

/--
Lines that are each ended are lines with breaks between them, and a last
break.
-/
theorem flatMap_newline
    {written : List (List Char)}
    (some : written ≠ []) :
    written.flatMap (· ++ ['\n']) = ['\n'].intercalate written ++ ['\n'] := by
  induction written with
  | nil =>
      exact (some rfl).elim
  | cons first later inductionHypothesis =>
      cases later with
      | nil =>
          rw [List.flatMap_singleton, List.intercalate_singleton]
      | cons second later =>
          rw [List.flatMap_cons, inductionHypothesis (List.cons_ne_nil _ _),
            List.intercalate_cons_cons, List.append_assoc, List.append_assoc,
            List.append_assoc]

end Segment

/--
The check for a single line finds exactly the texts without a line break.
-/
theorem isSingleLine_iff {text : String} :
    isSingleLine text = true ↔ IsLine text.toList := by
  simp [isSingleLine, IsLine]

namespace Frame

/-- Whether a frame can be carried is a matter of its texts. -/
private theorem carriable_iff {frame : Frame} :
    frame.Carriable ↔
      frame.data ≠ "" ∧ isSingleLine frame.data = true ∧
        frame.event.all isSingleLine = true ∧
        frame.id.all isSingleLine = true := by
  simp only [Option.all_eq_true, isSingleLine_iff]
  exact ⟨fun ⟨filled, data, event, id⟩ => ⟨filled, data, event, id⟩,
    fun ⟨filled, data, event, id⟩ => ⟨filled, data, event, id⟩⟩

instance (frame : Frame) : Decidable frame.Carriable :=
  decidable_of_iff _ carriable_iff.symm

/-- The line of a field that may be missing, without its break. -/
def fieldLines (label : List Char) (value : Option String) :
    List (List Char) :=
  value.toList.map fun value => label ++ ' ' :: value.toList

/-- The lines of the written form, if the payload is on one line. -/
def lines (frame : Frame) : List (List Char) :=
  fieldLines Segment.idLabel frame.id ++
    fieldLines Segment.eventLabel frame.event ++
    [Segment.dataLabel ++ ' ' :: frame.data.toList]

/-- The bytes of the written form before its blank line. -/
def segment (frame : Frame) : List UInt8 :=
  Text.Utf8.encode (['\n'].intercalate frame.lines)

/-- An optional field is written as its lines, each with a newline. -/
private theorem optionalLine_eq (label : List Char) (value : Option String) :
    optionalLine label value =
      (fieldLines label value).flatMap (· ++ ['\n']) := by
  cases value with
  | none =>
      rfl
  | some value =>
      exact (List.append_nil _).symm

variable {frame : Frame}

/--
The lines of the written form, whatever the payload is: one for each part of
it between line feeds.
-/
def writtenLines (frame : Frame) : List (List Char) :=
  fieldLines Segment.idLabel frame.id ++
    fieldLines Segment.eventLabel frame.event ++
    (Text.splitWhere (· == '\n') frame.data.toList).map fun line =>
      Segment.dataLabel ++ ' ' :: line

theorem writtenLines_ne_nil (frame : Frame) : frame.writtenLines ≠ [] := by
  obtain ⟨first, later, shape⟩ :=
    Text.exists_splitWhere (· == '\n') frame.data.toList
  rw [writtenLines, shape]
  exact List.append_ne_nil_of_right_ne_nil _ (List.cons_ne_nil _ _)

/-- A payload is written as one labelled line for each of its parts. -/
private theorem payloadLines_eq (payload : List Char) :
    payloadLines payload =
      ((Text.splitWhere (· == '\n') payload).map fun line =>
        Segment.dataLabel ++ ' ' :: line).flatMap (· ++ ['\n']) := by
  rw [payloadLines, List.flatMap_map]
  rfl

/-- A frame is written as its lines and a blank line. -/
theorem encodeBytes_eq_written (frame : Frame) :
    frame.encodeBytes =
      Text.Utf8.encode (['\n'].intercalate frame.writtenLines) ++
        Reference.blankLine := by
  have text :
      frame.encode =
        ['\n'].intercalate frame.writtenLines ++ ['\n', '\n'] := by
    rw [encode, optionalLine_eq, optionalLine_eq, payloadLines_eq,
      ← List.flatMap_append, ← List.flatMap_append]
    change frame.writtenLines.flatMap _ ++ _ = _
    rw [Segment.flatMap_newline frame.writtenLines_ne_nil, List.append_assoc]
    rfl
  rw [encodeBytes, text, Text.Utf8.encode_append]
  rfl

/-- A payload on one line is written on one line. -/
private theorem writtenLines_of_isLine (isLine : IsLine frame.data.toList) :
    frame.writtenLines = frame.lines := by
  have unbroken :
      Text.splitWhere (· == '\n') frame.data.toList = [frame.data.toList] := by
    refine Text.splitWhere_of_clear fun character member => ?_
    exact beq_false_of_ne fun same =>
      isLine.newline_not_mem (same ▸ member)
  rw [writtenLines, unbroken]
  rfl

/-- A frame that can be carried is written as its segment and a blank line. -/
theorem encodeBytes_eq (carriable : frame.Carriable) :
    frame.encodeBytes = frame.segment ++ Reference.blankLine := by
  rw [encodeBytes_eq_written, writtenLines_of_isLine carriable.data]
  rfl

private theorem lines_ne_nil (frame : Frame) : frame.lines ≠ [] :=
  List.append_ne_nil_of_right_ne_nil _ (List.cons_ne_nil _ _)

/-- A field with a single-line value is written on single lines. -/
theorem isLine_of_mem_fieldLines
    {label line : List Char}
    {value : Option String}
    (isLabel : IsLine label)
    (isValue : ∀ text ∈ value, IsLine text.toList)
    (member : line ∈ fieldLines label value) :
    IsLine line := by
  obtain ⟨text, among, rfl⟩ := List.mem_map.mp member
  exact Segment.isLine_field isLabel
    (isValue text (Option.mem_toList.mp among))

/-- A frame that can be carried is written on single lines. -/
private theorem areLines (carriable : frame.Carriable) :
    ∀ line ∈ frame.lines, IsLine line := by
  intro line member
  rcases List.mem_append.mp member with fields | payload
  · rcases List.mem_append.mp fields with identifier | name
    · exact isLine_of_mem_fieldLines Segment.isLine_idLabel carriable.id
        identifier
    · exact isLine_of_mem_fieldLines Segment.isLine_eventLabel
        carriable.event name
  · rw [List.mem_singleton.mp payload]
    exact Segment.isLine_field Segment.isLine_dataLabel carriable.data

/-- Every line begins with a label. -/
private theorem line_ne_nil {line : List Char} (member : line ∈ frame.lines) :
    line ≠ [] := by
  rintro rfl
  simp [lines, fieldLines] at member

/-- The segment of a frame that can be carried is one segment. -/
theorem isWhole_segment (carriable : frame.Carriable) :
    Reference.IsWhole frame.segment :=
  Reference.isWhole_of_lines
    (fun _ member => line_ne_nil member)
    (fun line member => (areLines carriable line member).newline_not_mem)

/-- A frame on lines is read back from its segment. -/
theorem ofSegment?_segment (carriable : frame.Carriable) :
    ofSegment? frame.segment = some frame := by
  have filled : frame.data.toList ≠ [] := by
    simpa using carriable.filled
  rw [ofSegment?, segment, Text.Utf8.decodeLossy_encode,
    ofText?_intercalate frame.lines_ne_nil (areLines carriable)]
  obtain ⟨event, id, data⟩ := frame
  cases event <;> cases id <;>
    simp [lines, fieldLines, filled, Segment.Fields.toFrame?,
      Segment.Fields.empty]

/--
Frames that are written one after another, and cut into chunks anywhere, are
read back as they were and in order, with nothing left over: each with its
payload, and with its name and identifier or without them.
-/
theorem written_frames_are_read_back
    (limit : Nat)
    {frames : List Frame}
    (carriable : ∀ frame ∈ frames, frame.Carriable)
    {feedings : List Feeding}
    (all : ∀ feeding ∈ feedings, feeding.asked = none)
    (cut : feedings.flatMap Feeding.chunk = frames.flatMap encodeBytes) :
    ((Decoder.new limit).feedAll feedings).1 = frames ∧
      ((Decoder.new limit).feedAll feedings).2.buffer = [] := by
  have whole : ∀ written ∈ frames.map segment, Reference.IsWhole written := by
    intro written member
    obtain ⟨frame, among, rfl⟩ := List.mem_map.mp member
    exact isWhole_segment (carriable frame among)
  have bytes :
      frames.flatMap encodeBytes =
        (frames.map segment).flatMap (· ++ Reference.blankLine) := by
    rw [List.flatMap_map]
    exact List.flatMap_congr fun frame among =>
      encodeBytes_eq (carriable frame among)
  have readBack : (frames.map segment).filterMap ofSegment? = frames := by
    rw [List.filterMap_map]
    exact (List.filterMap_congr fun frame among =>
      ofSegment?_segment (carriable frame among)).trans List.filterMap_some
  obtain ⟨read, held⟩ :=
    Decoder.feedAll_of_whole limit all whole (cut.trans bytes)
  exact ⟨read.trans readBack, held⟩

/-- An empty name, a payload that looks like a field, and one of two bytes. -/
def awkward : List Frame :=
  [⟨some "", some " :7", "  id: x"⟩, ⟨none, none, "é"⟩]

/-- Cut within the character of two bytes, they are read back all the same. -/
theorem awkward_frames_are_read_back :
    let wire := awkward.flatMap encodeBytes
    let feedings : List Feeding :=
      [⟨wire.take 9, none⟩, ⟨[], none⟩, ⟨(wire.drop 9).take 29, none⟩,
        ⟨wire.drop 38, none⟩]
    (wire.drop 38).head? = some 0xA9 ∧
      ((Decoder.new 4).feedAll feedings).1 = awkward := by
  intro wire feedings
  have carriable : ∀ frame ∈ awkward, frame.Carriable := by
    decide +kernel
  have cut : feedings.flatMap Feeding.chunk = wire := by
    decide +kernel
  exact ⟨by decide +kernel,
    (written_frames_are_read_back 4 carriable (by decide) cut).1⟩

end Frame

end EventRelay
