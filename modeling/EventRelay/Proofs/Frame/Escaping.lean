import EventRelay.Proofs.Frame.Carrying

namespace EventRelay

/-!
# Payloads that leave their lines

A payload is written with a label on each of its parts between line feeds, but
carriage returns end lines as well when it is read.  What follows a carriage
return is a stray line: it stands there without a label, and is read for the
field with whose label it happens to start.  Hence a payload without carriage
returns stays a payload, and any other may bring a name, an identifier or
another payload with it.
-/

namespace Segment

/-- The parts of a payload that are written on lines of their own. -/
def parts (payload : List Char) : List (List Char) :=
  Text.splitWhere (· == '\n') payload

/-- The lines of a payload that are written without a label. -/
def strayLines (payload : List Char) : List (List Char) :=
  (parts payload).flatMap fun part => (lines part).tail

/--
What is read as payloads of a written payload: the lines behind labels, and
the values of stray lines that are payload lines themselves.
-/
def readPayloads (payload : List Char) : List (List Char) :=
  (parts payload).flatMap fun part =>
    (lines part).take 1 ++ valuesOf dataLabel ' ' (lines part).tail

/-- The label of a part is that of its first line. -/
theorem exists_lines_labelled
    {label : List Char}
    (isLabel : IsLine label)
    (part : List Char) :
    ∃ first stray,
      lines part = first :: stray ∧
        lines (label ++ ' ' :: part) = (label ++ ' ' :: first) :: stray := by
  obtain ⟨first, stray, shape⟩ := Text.exists_splitWhere isLineBreak part
  have clear : ∀ character ∈ label ++ [' '], isLineBreak character = false :=
    isLabel.append (List.forall_mem_singleton.mpr rfl)
  have labelled := Text.splitWhere_append_left clear shape
  rw [List.append_assoc, List.append_assoc] at labelled
  exact ⟨first, stray, shape, labelled⟩

/--
Of a part behind a label, its first line is read, and the payloads of its
stray lines.
-/
private theorem valuesOf_data_part (part : List Char) :
    valuesOf dataLabel ' ' (lines (dataLabel ++ ' ' :: part)) =
      (lines part).take 1 ++ valuesOf dataLabel ' ' (lines part).tail := by
  obtain ⟨first, stray, shape, labelled⟩ :=
    exists_lines_labelled isLine_dataLabel part
  rw [labelled, shape, valuesOf, List.filterMap_cons_some
    (fieldValue?_append dataLabel first ' ')]
  rfl

/-- Other fields can only be found on stray lines. -/
theorem valuesOf_other_part
    (label : List Char)
    (apart : ∀ rest, ¬label <+: dataLabel ++ rest)
    (part : List Char) :
    valuesOf label ' ' (lines (dataLabel ++ ' ' :: part)) =
      valuesOf label ' ' (lines part).tail := by
  obtain ⟨first, stray, shape, labelled⟩ :=
    exists_lines_labelled isLine_dataLabel part
  rw [labelled, shape, valuesOf, List.filterMap_cons_none
    (fieldValue?_eq_none_iff.mpr (apart (' ' :: first)))]
  rfl

/-- The lines of the parts are the lines of the payload. -/
private theorem flatMap_lines_parts (payload : List Char) :
    (parts payload).flatMap lines = lines payload := by
  apply Text.flatMap_splitWhere
  intro character isFeed
  rw [isLineBreak, isFeed]
  rfl

/-- Stray lines are lines of the payload. -/
private theorem mem_lines_of_mem_strayLines
    {payload line : List Char}
    (member : line ∈ strayLines payload) :
    line ∈ lines payload := by
  obtain ⟨part, isPart, among⟩ := List.mem_flatMap.mp member
  rw [← flatMap_lines_parts]
  exact List.mem_flatMap.mpr ⟨part, isPart, List.mem_of_mem_tail among⟩

/-- Without a carriage return the parts are the lines. -/
theorem parts_eq_lines
    {payload : List Char}
    (clear : '\r' ∉ payload) :
    parts payload = lines payload := by
  apply Text.splitWhere_congr
  intro character member
  have notReturn : character ≠ '\r' := by
    rintro rfl
    exact clear member
  rw [isLineBreak, beq_false_of_ne notReturn, Bool.or_false]

private theorem lines_of_mem_lines
    {payload line : List Char}
    (member : line ∈ lines payload) :
    lines line = [line] :=
  Text.splitWhere_of_clear (Text.clear_of_mem_splitWhere member)

/-- Without a carriage return there is no stray line. -/
theorem strayLines_of_clear
    {payload : List Char}
    (clear : '\r' ∉ payload) :
    strayLines payload = [] := by
  rw [strayLines, parts_eq_lines clear, List.flatMap_eq_nil_iff]
  intro line member
  rw [lines_of_mem_lines member]
  rfl

/-- Without a carriage return the lines are what is read. -/
theorem readPayloads_of_clear
    {payload : List Char}
    (clear : '\r' ∉ payload) :
    readPayloads payload = lines payload := by
  have single : ∀ line ∈ lines payload,
      (lines line).take 1 ++ valuesOf dataLabel ' ' (lines line).tail =
        [line] := by
    intro line member
    rw [lines_of_mem_lines member]
    rfl
  rw [readPayloads, parts_eq_lines clear, List.flatMap_congr single,
    List.flatMap_singleton']

end Segment

namespace Frame

open Segment (dataLabel eventLabel idLabel valuesOf strayLines readPayloads)

section

variable {label : List Char} {value : Option String}

/-- The value of a field that is written on one line. -/
theorem valuesOf_fieldLines (isLabel : IsLine label)
    (isValue : ∀ text ∈ value, IsLine text.toList) :
    valuesOf label ' ' ((fieldLines label value).flatMap Segment.lines) =
      value.toList.map String.toList := by
  cases value with
  | none =>
      rfl
  | some text =>
      have isLine := Segment.isLine_field isLabel (isValue text rfl)
      rw [fieldLines, Option.toList_some, List.map_singleton,
        List.flatMap_singleton, Segment.lines, Text.splitWhere_of_clear isLine,
        valuesOf, List.filterMap_cons_some
          (Segment.fieldValue?_append label text.toList ' ')]
      rfl

/-- Such a line holds no value for another label. -/
theorem valuesOf_fieldLines_other (other : List Char) (isLabel : IsLine label)
    (isValue : ∀ text ∈ value, IsLine text.toList)
    (apart : ∀ rest, ¬other <+: label ++ rest) :
    valuesOf other ' ' ((fieldLines label value).flatMap Segment.lines) =
      [] := by
  rw [Segment.valuesOf_eq_nil_iff]
  intro line member
  obtain ⟨written, isWritten, among⟩ := List.mem_flatMap.mp member
  have isLine := isLine_of_mem_fieldLines isLabel isValue isWritten
  rw [Segment.lines, Text.splitWhere_of_clear isLine,
    List.mem_singleton] at among
  obtain ⟨text, -, rfl⟩ := List.mem_map.mp isWritten
  rw [among]
  exact apart _

end

variable {frame : Frame}

/-- A frame whose name and identifier are on one line each. -/
structure HasPlainFields (frame : Frame) : Prop where
  event : ∀ name ∈ frame.event, IsLine name.toList
  id : ∀ identifier ∈ frame.id, IsLine identifier.toList

/-- The written lines of a frame are those of its fields and of its parts. -/
private theorem lines_writtenLines (frame : Frame) :
    Segment.lines (['\n'].intercalate frame.writtenLines) =
      (fieldLines idLabel frame.id).flatMap Segment.lines ++
        (fieldLines eventLabel frame.event).flatMap Segment.lines ++
        (Segment.parts frame.data.toList).flatMap fun part =>
          Segment.lines (dataLabel ++ ' ' :: part) := by
  rw [Segment.lines, Text.splitWhere_intercalate_eq rfl
    frame.writtenLines_ne_nil, writtenLines, List.flatMap_append,
    List.flatMap_append, List.flatMap_map]
  rfl

namespace HasPlainFields

variable (plain : frame.HasPlainFields)

include plain

/-- These payloads are read from a written frame. -/
private theorem payloads_written :
    valuesOf dataLabel ' '
        (Segment.lines (['\n'].intercalate frame.writtenLines)) =
      readPayloads frame.data.toList := by
  have noId := valuesOf_fieldLines_other dataLabel
    Segment.isLine_idLabel plain.id (by simp [dataLabel, idLabel])
  have noEvent := valuesOf_fieldLines_other dataLabel
    Segment.isLine_eventLabel plain.event (by simp [dataLabel, eventLabel])
  rw [valuesOf] at noId noEvent ⊢
  rw [lines_writtenLines, List.filterMap_append, List.filterMap_append, noId,
    noEvent, List.filterMap_flatMap]
  exact congrArg (List.flatMap · _) (funext Segment.valuesOf_data_part)

/-- From a written frame its own name is read, and those on stray lines. -/
private theorem names_written :
    valuesOf eventLabel ' '
        (Segment.lines (['\n'].intercalate frame.writtenLines)) =
      frame.event.toList.map String.toList ++
        valuesOf eventLabel ' ' (strayLines frame.data.toList) := by
  have noId := valuesOf_fieldLines_other eventLabel
    Segment.isLine_idLabel plain.id (by simp [eventLabel, idLabel])
  have own := valuesOf_fieldLines Segment.isLine_eventLabel plain.event
  have stray := Segment.valuesOf_other_part eventLabel
    (by simp [dataLabel, eventLabel])
  rw [valuesOf] at noId own
  rw [valuesOf, lines_writtenLines, List.filterMap_append,
    List.filterMap_append, noId, own, List.filterMap_flatMap, valuesOf,
    strayLines, List.filterMap_flatMap]
  exact congrArg (_ ++ List.flatMap · _) (funext stray)

/--
From a written frame its own identifier is read, and those on stray lines.
-/
private theorem identifiers_written :
    valuesOf idLabel ' '
        (Segment.lines (['\n'].intercalate frame.writtenLines)) =
      frame.id.toList.map String.toList ++
        valuesOf idLabel ' ' (strayLines frame.data.toList) := by
  have own := valuesOf_fieldLines Segment.isLine_idLabel plain.id
  have noEvent := valuesOf_fieldLines_other idLabel
    Segment.isLine_eventLabel plain.event (by simp [idLabel, eventLabel])
  have stray := Segment.valuesOf_other_part idLabel
    (by simp [dataLabel, idLabel])
  rw [valuesOf] at own noEvent
  rw [valuesOf, lines_writtenLines, List.filterMap_append,
    List.filterMap_append, own, noEvent, List.filterMap_flatMap, valuesOf,
    strayLines, List.filterMap_flatMap, List.append_nil]
  exact congrArg (_ ++ List.flatMap · _) (funext stray)

/-- Whatever the payload is, the written form is one segment. -/
private theorem isWhole_written :
    Reference.IsWhole
      (Text.Utf8.encode (['\n'].intercalate frame.writtenLines)) := by
  apply Reference.isWhole_of_lines
  · rintro line member rfl
    simp [writtenLines, fieldLines] at member
  · intro line member
    rcases List.mem_append.mp member with fields | labelled
    · rcases List.mem_append.mp fields with identifier | name
      · exact (isLine_of_mem_fieldLines Segment.isLine_idLabel plain.id
          identifier).newline_not_mem
      · exact (isLine_of_mem_fieldLines Segment.isLine_eventLabel plain.event
          name).newline_not_mem
    · obtain ⟨part, isPart, rfl⟩ := List.mem_map.mp labelled
      intro feed
      rcases List.mem_append.mp feed with inLabel | afterLabel
      · exact Segment.isLine_dataLabel.newline_not_mem inLabel
      · rcases List.mem_cons.mp afterLabel with isBlank | inPart
        · cases isBlank
        · cases Text.clear_of_mem_splitWhere isPart '\n' inPart

/--
What is read back is the first payload that is read, with the name and the
identifier of the frame, or those of stray lines if it has none.
-/
theorem decodeBack_eq :
    frame.decodeBack =
      (((readPayloads frame.data.toList).find? (!·.isEmpty)).map fun payload =>
        (⟨frame.event.or
            ((valuesOf eventLabel ' ' (strayLines frame.data.toList)).head?.map
              String.ofList),
          frame.id.or
            ((valuesOf idLabel ' ' (strayLines frame.data.toList)).head?.map
              String.ofList),
          String.ofList payload⟩ : Frame)).toList := by
  have first (value : Option String) (stray : List (List Char)) :
      (value.toList.map String.toList ++ stray).head?.map String.ofList =
        value.or (stray.head?.map String.ofList) := by
    cases value <;> simp
  rw [decodeBack, encodeBytes_eq_written,
    Decoder.decodeAll_of_whole _ plain.isWhole_written, ofSegment?,
    Text.Utf8.decodeLossy_encode, ofText?_eq, plain.payloads_written,
    plain.names_written, plain.identifiers_written, first, first]

end HasPlainFields

/-- The frame with the first line of its payload that is not empty. -/
def firstLine? (frame : Frame) : Option Frame :=
  ((Segment.lines frame.data.toList).find? (!·.isEmpty)).map fun line =>
    { frame with data := String.ofList line }

/--
Whether a payload brings nothing but itself: its first line that is not empty
is the first one that is read, and no stray line is read for a field that the
frame does not have.
-/
structure IsContained (frame : Frame) : Prop where
  payload :
    (readPayloads frame.data.toList).find? (!·.isEmpty) =
      (Segment.lines frame.data.toList).find? (!·.isEmpty)
  event :
    frame.event = none →
      ∀ line ∈ strayLines frame.data.toList, ¬eventLabel <+: line
  id :
    frame.id = none →
      ∀ line ∈ strayLines frame.data.toList, ¬idLabel <+: line

/--
A field that a frame has is kept; one that it has not is kept away exactly if
no stray line starts with its label.
-/
theorem or_stray_eq_iff
    {label : List Char}
    {value : Option String}
    {stray : List (List Char)} :
    value.or ((valuesOf label ' ' stray).head?.map String.ofList) = value ↔
      (value = none → ∀ line ∈ stray, ¬label <+: line) := by
  cases value with
  | none =>
      rw [Option.none_or, Option.map_eq_none_iff, List.head?_eq_none_iff,
        Segment.valuesOf_eq_nil_iff]
      exact ⟨fun apart _ => apart, fun apart => apart rfl⟩
  | some text =>
      exact iff_of_true rfl nofun

/-- If all lines of a payload are empty, no stray line has a label. -/
private theorem no_label_of_empty_lines
    {label payload : List Char}
    (filled : label ≠ [])
    (empty : (Segment.lines payload).find? (!·.isEmpty) = none) :
    ∀ line ∈ strayLines payload, ¬label <+: line := by
  intro line stray labelled
  have isEmpty := List.find?_eq_none.mp empty line
    (Segment.mem_lines_of_mem_strayLines stray)
  obtain rfl : line = [] := by
    simpa using isEmpty
  exact filled (List.prefix_nil.mp labelled)

private theorem toList_inj {first second : Option α} :
    first.toList = second.toList ↔ first = second := by
  cases first <;> cases second <;> simp

/--
A frame whose name and identifier are on one line each is written so that its
name, its identifier and the first line of its payload that is not empty are
read back, or nothing if all lines are empty, exactly if its payload is
contained.  Every payload without a carriage return is.
-/
theorem first_line_is_read_back_iff
    {frame : Frame}
    (plain : frame.HasPlainFields) :
    (frame.decodeBack = frame.firstLine?.toList ↔ frame.IsContained) ∧
      ('\r' ∉ frame.data.toList → frame.IsContained) := by
  constructor
  · rw [plain.decodeBack_eq, toList_inj, firstLine?]
    constructor
    · intro same
      have payload :
          (readPayloads frame.data.toList).find? (!·.isEmpty) =
            (Segment.lines frame.data.toList).find? (!·.isEmpty) := by
        have texts := congrArg (Option.map (·.data.toList)) same
        simpa [Option.map_map, Function.comp_def] using texts
      rw [payload] at same
      cases first : (Segment.lines frame.data.toList).find? (!·.isEmpty) with
      | none =>
          exact ⟨payload,
            fun _ => no_label_of_empty_lines (List.cons_ne_nil _ _) first,
            fun _ => no_label_of_empty_lines (List.cons_ne_nil _ _) first⟩
      | some line =>
          rw [first, Option.map_some, Option.map_some, Option.some.injEq,
            Frame.mk.injEq] at same
          exact ⟨payload, or_stray_eq_iff.mp same.1,
            or_stray_eq_iff.mp same.2.1⟩
    · intro contained
      rw [contained.payload]
      exact Option.map_congr fun payload _ => by
        rw [or_stray_eq_iff.mpr contained.event,
          or_stray_eq_iff.mpr contained.id]
  · intro clear
    constructor
    · rw [Segment.readPayloads_of_clear clear]
    · intro _ line stray
      rw [Segment.strayLines_of_clear clear] at stray
      cases stray
    · intro _ line stray
      rw [Segment.strayLines_of_clear clear] at stray
      cases stray

/-- Blank lines, a line that looks like an identifier, and a stray line. -/
def fieldLike : Frame :=
  ⟨none, some "7", "\n\r\nid: x\ry\n"⟩

/-- The line that looks like an identifier is read back as the payload. -/
theorem fieldLike_is_read_back :
    fieldLike.HasPlainFields ∧
      fieldLike.decodeBack = [⟨none, some "7", "id: x"⟩] := by
  have plain : fieldLike.HasPlainFields := by
    constructor
    · rintro _ ⟨⟩
    · rintro _ ⟨⟩
      exact isSingleLine_iff.mp (by decide)
  have contained : fieldLike.IsContained := by
    constructor
    · decide
    · intro _
      decide
    · rintro ⟨⟩
  exact ⟨plain, (first_line_is_read_back_iff plain).1.mpr contained⟩

/-- A payload without a name that brings one behind a carriage return. -/
theorem payload_brings_name :
    let frame : Frame := ⟨none, none, "x\revent: evil"⟩
    frame.event.all isSingleLine = true ∧ frame.id.all isSingleLine = true ∧
      frame.firstLine?.toList = [⟨none, none, "x"⟩] ∧
      frame.decodeBack = [⟨some "evil", none, "x"⟩] ∧
      frame.decodeBack ≠ frame.firstLine?.toList := by
  decide +kernel

/-- A payload that starts with a carriage return is lost. -/
example : decodeBack ⟨none, none, "\rx"⟩ = [] := by
  decide +kernel

end Frame

end EventRelay
