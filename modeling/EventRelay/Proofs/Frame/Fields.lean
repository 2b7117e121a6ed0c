import EventRelay.Frame.Segment
import EventRelay.Proofs.Text.Split

namespace EventRelay

/-!
# Fields of a segment

What a segment is read for stays within its lines: a payload is not empty, and
no field holds a line break.  Comments and empty lines hold no field.
-/

/-- Whether characters stay on one line. -/
def IsLine (characters : List Char) : Prop :=
  ∀ character ∈ characters, isLineBreak character = false

namespace IsLine

/-- Two texts on one line make one line. -/
theorem append
    {first second : List Char}
    (isFirst : IsLine first)
    (isSecond : IsLine second) :
    IsLine (first ++ second) := by
  intro character member
  exact (List.mem_append.mp member).elim (isFirst character)
    (isSecond character)

theorem newline_not_mem
    {line : List Char}
    (isLine : IsLine line) :
    '\n' ∉ line := by
  intro member
  cases isLine '\n' member

end IsLine

/-- Whether a frame is what an event can carry: a payload, on lines. -/
structure Frame.Carriable (frame : Frame) : Prop where
  filled : frame.data ≠ ""
  data : IsLine frame.data.toList
  event : ∀ name ∈ frame.event, IsLine name.toList
  id : ∀ identifier ∈ frame.id, IsLine identifier.toList

namespace Segment

variable [DecidableEq α]

/-- What follows a label is what is left of the line without it. -/
private theorem eq_of_afterLabel?
    {label items rest : List α}
    (follows : afterLabel? label items = some rest) :
    items = label ++ rest := by
  fun_induction afterLabel? label items with
  | case1 items =>
      cases follows
      rfl
  | case2 =>
      cases follows
  | case3 expected label items inductionHypothesis =>
      rw [inductionHypothesis follows]
      rfl
  | case4 =>
      cases follows

@[simp] theorem afterLabel?_append (label rest : List α) :
    afterLabel? label (label ++ rest) = some rest := by
  induction label with
  | nil =>
      cases rest <;> rfl
  | cons expected label inductionHypothesis =>
      rw [List.cons_append, afterLabel?, if_pos rfl, inductionHypothesis]

/-- Dropping a blank adds nothing. -/
private theorem mem_of_mem_dropOne
    {blank item : α}
    {items : List α}
    (member : item ∈ dropOne blank items) :
    item ∈ items := by
  cases items with
  | nil =>
      exact member
  | cons first rest =>
      rw [dropOne] at member
      split at member
      · exact List.mem_cons_of_mem first member
      · exact member

/-- A value is part of its line. -/
theorem mem_of_mem_fieldValue?
    {label line value : List α}
    {blank item : α}
    (reads : fieldValue? label blank line = some value)
    (member : item ∈ value) :
    item ∈ line := by
  obtain ⟨rest, follows, rfl⟩ := Option.map_eq_some_iff.mp reads
  rw [eq_of_afterLabel? follows]
  exact List.mem_append_right label (mem_of_mem_dropOne member)

/-- A value that is written after a label and a blank is read back. -/
@[simp] theorem fieldValue?_append
    (label value : List α)
    (blank : α) :
    fieldValue? label blank (label ++ blank :: value) = some value := by
  rw [fieldValue?, afterLabel?_append]
  simp [dropOne]

namespace Fields

/-- Fields that stay on lines, with a payload that is not empty. -/
structure OnLines (fields : Fields) : Prop where
  event : ∀ name ∈ fields.event, IsLine name
  id : ∀ identifier ∈ fields.id, IsLine identifier
  data : ∀ payload ∈ fields.data, payload ≠ [] ∧ IsLine payload

/-- The first of two values is one of them. -/
private theorem forall_mem_or
    {property : List Char → Prop}
    {first second : Option (List Char)}
    (holdsFirst : ∀ value ∈ first, property value)
    (holdsSecond : ∀ value ∈ second, property value) :
    ∀ value ∈ first.or second, property value := by
  cases first with
  | none =>
      exact holdsSecond
  | some value =>
      exact holdsFirst

/-- A line gives values that stay on it. -/
theorem OnLines.readLine
    {fields : Fields}
    {line : List Char}
    (onLines : fields.OnLines)
    (isLine : IsLine line) :
    (fields.readLine line).OnLines := by
  have within
      {label value : List Char}
      (reads : fieldValue? label ' ' line = some value) :
      IsLine value :=
    fun character member =>
      isLine character (mem_of_mem_fieldValue? reads member)
  unfold Fields.readLine
  split
  · exact onLines
  · next payload notEmpty reads =>
      refine ⟨onLines.event, onLines.id, forall_mem_or onLines.data ?_⟩
      rintro value ⟨⟩
      exact ⟨notEmpty, within reads⟩
  · split
    · next name reads =>
        refine ⟨forall_mem_or onLines.event ?_, onLines.id, onLines.data⟩
        rintro value ⟨⟩
        exact within reads
    · split
      · next identifier reads =>
          refine ⟨onLines.event, forall_mem_or onLines.id ?_, onLines.data⟩
          rintro value ⟨⟩
          exact within reads
      · exact onLines

end Fields

end Segment

namespace Frame

/-- The frame of a text is what an event can carry. -/
private theorem carriable_of_ofText?
    {text : List Char}
    {frame : Frame}
    (reads : ofText? text = some frame) :
    frame.Carriable := by
  obtain ⟨payload, isPayload, rfl⟩ := Option.map_eq_some_iff.mp reads
  have onLines :
      ((Segment.lines text).foldl Segment.Fields.readLine .empty).OnLines := by
    refine List.foldlRecOn _ _ ⟨by rintro _ ⟨⟩, by rintro _ ⟨⟩,
      by rintro _ ⟨⟩⟩ ?_
    intro fields onLines line member
    exact onLines.readLine (Text.clear_of_mem_splitWhere member)
  obtain ⟨filled, isLine⟩ := onLines.data payload isPayload
  constructor
  · simpa using filled
  · simpa using isLine
  · intro name among
    obtain ⟨characters, isName, rfl⟩ := Option.map_eq_some_iff.mp among
    simpa using onLines.event characters isName
  · intro identifier among
    obtain ⟨characters, isIdentifier, rfl⟩ := Option.map_eq_some_iff.mp among
    simpa using onLines.id characters isIdentifier

/-- Every frame that was read can be carried. -/
theorem carriable_of_ofSegment?
    {segment : List UInt8}
    {frame : Frame}
    (reads : ofSegment? segment = some frame) :
    frame.Carriable :=
  carriable_of_ofText? reads

end Frame

namespace Segment

section

variable [DecidableEq α] {label rest : List α} {blank : α}

/-- The values of the lines that start with a label. -/
def valuesOf (label : List α) (blank : α) (lines : List (List α)) :
    List (List α) :=
  lines.filterMap (fieldValue? label blank)

/-- A line that starts otherwise than a label has no value for it. -/
theorem fieldValue?_eq_none_of_head
    {expected item : α}
    (other : expected ≠ item) :
    fieldValue? (expected :: label) blank (item :: rest) = none := by
  rw [fieldValue?, afterLabel?, if_neg other]
  rfl

/-- A line has no value exactly if it does not start with the label. -/
theorem fieldValue?_eq_none_iff {line : List α} :
    fieldValue? label blank line = none ↔ ¬label <+: line := by
  constructor
  · rintro noValue ⟨rest, rfl⟩
    rw [fieldValue?, afterLabel?_append] at noValue
    cases noValue
  · intro unlabelled
    apply Option.eq_none_iff_forall_ne_some.mpr
    intro value reads
    obtain ⟨rest, follows, -⟩ := Option.map_eq_some_iff.mp reads
    exact unlabelled ⟨rest, (eq_of_afterLabel? follows).symm⟩

/-- A label has no values exactly when no line begins with it. -/
theorem valuesOf_eq_nil_iff {lines : List (List α)} :
    valuesOf label blank lines = [] ↔ ∀ line ∈ lines, ¬label <+: line := by
  rw [valuesOf, List.filterMap_eq_nil_iff]
  exact forall₂_congr fun _ _ => fieldValue?_eq_none_iff

end

/-- A line is for one field at most. -/
private theorem fieldValue?_of_data
    {line value : List Char}
    (reads : fieldValue? dataLabel ' ' line = some value) :
    fieldValue? eventLabel ' ' line = none ∧
      fieldValue? idLabel ' ' line = none := by
  obtain ⟨rest, follows, -⟩ := Option.map_eq_some_iff.mp reads
  rw [eq_of_afterLabel? follows]
  exact ⟨fieldValue?_eq_none_of_head (by decide),
    fieldValue?_eq_none_of_head (by decide)⟩

/-- A line with an event name has no identifier. -/
private theorem fieldValue?_of_event
    {line value : List Char}
    (reads : fieldValue? eventLabel ' ' line = some value) :
    fieldValue? idLabel ' ' line = none := by
  obtain ⟨rest, follows, -⟩ := Option.map_eq_some_iff.mp reads
  rw [eq_of_afterLabel? follows]
  exact fieldValue?_eq_none_of_head (by decide)

namespace Fields

/-- A line is read for each field as if there were no others. -/
private theorem readLine_eq (fields : Fields) (line : List Char) :
    fields.readLine line =
      ⟨fields.event.or (fieldValue? eventLabel ' ' line),
        fields.id.or (fieldValue? idLabel ' ' line),
        fields.data.or
          ((fieldValue? dataLabel ' ' line).filter (!·.isEmpty))⟩ := by
  unfold Fields.readLine
  split
  · next reads =>
      obtain ⟨noEvent, noId⟩ := fieldValue?_of_data reads
      have dropped : (some ([] : List Char)).filter (!·.isEmpty) = none :=
        rfl
      rw [reads, noEvent, noId, dropped, Option.or_none, Option.or_none,
        Option.or_none]
  · next payload filled reads =>
      obtain ⟨noEvent, noId⟩ := fieldValue?_of_data reads
      rw [reads, noEvent, noId, Option.or_none, Option.or_none]
      cases payload with
      | nil =>
          exact (filled rfl).elim
      | cons first rest =>
          rfl
  · next noData =>
      rw [noData, Option.filter_none, Option.or_none]
      split
      · next name reads =>
          rw [reads, fieldValue?_of_event reads, Option.or_none]
      · next noEvent =>
          rw [noEvent, Option.or_none]
          split
          · next identifier reads =>
              rw [reads]
          · next noId =>
              rw [noId, Option.or_none]

/-- Of each field the first value wins, wherever the lines of others are. -/
private theorem foldl_readLine (fields : Fields) (lines : List (List Char)) :
    lines.foldl readLine fields =
      ⟨fields.event.or (valuesOf eventLabel ' ' lines).head?,
        fields.id.or (valuesOf idLabel ' ' lines).head?,
        fields.data.or
          ((valuesOf dataLabel ' ' lines).find? (!·.isEmpty))⟩ := by
  induction lines generalizing fields with
  | nil =>
      simp [valuesOf]
  | cons line later inductionHypothesis =>
      rw [List.foldl_cons, inductionHypothesis, readLine_eq]
      simp only [valuesOf, List.filterMap_cons, Option.or_assoc]
      congr 2
      · cases fieldValue? eventLabel ' ' line <;> rfl
      · cases fieldValue? idLabel ' ' line <;> rfl
      · cases fieldValue? dataLabel ' ' line with
        | none =>
            rfl
        | some payload =>
            cases payload <;> rfl

end Fields

end Segment

/--
The frame of a text is its first payload that is not empty, with the first
name and the first identifier.
-/
theorem Frame.ofText?_eq (text : List Char) :
    ofText? text =
      ((Segment.valuesOf Segment.dataLabel ' ' (Segment.lines text)).find?
          (!·.isEmpty)).map fun payload =>
        ⟨(Segment.valuesOf Segment.eventLabel ' ' (Segment.lines text)).head?.map
            String.ofList,
          (Segment.valuesOf Segment.idLabel ' ' (Segment.lines text)).head?.map
            String.ofList,
          String.ofList payload⟩ := by
  rw [ofText?, Segment.Fields.foldl_readLine]
  rfl

namespace Segment

/-- Lines that are written one after another are split again. -/
theorem lines_intercalate
    {written : List (List Char)}
    (some : written ≠ [])
    (areLines : ∀ line ∈ written, IsLine line) :
    lines (['\n'].intercalate written) = written :=
  Text.splitWhere_intercalate rfl some areLines

/-- A field on one line is written on one line. -/
theorem isLine_field
    {label value : List Char}
    (isLabel : IsLine label)
    (isValue : IsLine value) :
    IsLine (label ++ ' ' :: value) :=
  isLabel.append (List.forall_mem_cons.mpr ⟨rfl, isValue⟩)

theorem isLine_eventLabel : IsLine eventLabel := by
  simp [IsLine, eventLabel, isLineBreak]

theorem isLine_dataLabel : IsLine dataLabel := by
  simp [IsLine, dataLabel, isLineBreak]

/-- A line with a name sets the name unless there is one. -/
@[simp] theorem Fields.readLine_event (fields : Fields) (name : List Char) :
    fields.readLine (eventLabel ++ ' ' :: name) =
      { fields with event := fields.event.or (some name) } := by
  have otherLabel :
      fieldValue? dataLabel ' ' (eventLabel ++ ' ' :: name) = none :=
    rfl
  rw [readLine, otherLabel, fieldValue?_append]

/-- A line with a payload sets the payload unless there is one. -/
@[simp] theorem Fields.readLine_data
    (fields : Fields)
    {payload : List Char}
    (filled : payload ≠ []) :
    fields.readLine (dataLabel ++ ' ' :: payload) =
      { fields with data := fields.data.or (some payload) } := by
  rw [readLine, fieldValue?_append]
  cases payload with
  | nil =>
      exact (filled rfl).elim
  | cons first rest =>
      rfl

/-- Whether a line is a comment, or empty. -/
def isComment (line : List Char) : Bool :=
  line.head?.all (· == ':')

/-- Comments change no field. -/
private theorem Fields.readLine_of_isComment
    (fields : Fields)
    {line : List Char}
    (comment : isComment line = true) :
    fields.readLine line = fields := by
  cases line with
  | nil =>
      rfl
  | cons first rest =>
      obtain rfl : first = ':' := by
        simpa [isComment] using comment
      rfl

end Segment

namespace Frame

/-- A text that is written as lines is read line by line. -/
theorem ofText?_intercalate
    {written : List (List Char)}
    (some : written ≠ [])
    (areLines : ∀ line ∈ written, IsLine line) :
    ofText? (['\n'].intercalate written) =
      (written.foldl Segment.Fields.readLine .empty).toFrame? := by
  rw [ofText?, Segment.lines_intercalate some areLines]

/-- Comments hold no frame. -/
theorem ofText?_of_comments
    {text : List Char}
    (comments : ∀ line ∈ Segment.lines text, Segment.isComment line = true) :
    ofText? text = none := by
  have unread :
      (Segment.lines text).foldl Segment.Fields.readLine .empty = .empty := by
    refine List.foldlRecOn (motive := (· = Segment.Fields.empty)) _ _ rfl ?_
    rintro fields rfl line member
    exact Segment.Fields.readLine_of_isComment _ (comments line member)
  rw [ofText?, unread]
  rfl

end Frame

end EventRelay
