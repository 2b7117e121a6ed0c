import EventRelay.Proofs.Downstream.Queue
import EventRelay.Proofs.Frame.Carrying

namespace EventRelay.Downstream

/-!
# What is relayed is read back

An event that is written for a consumer is a whole segment of two lines, and a
comment is a whole segment without a field.  A decoder that reads them gets
the events back, whatever the chunks are.
-/

namespace Event

/-- The frame that a consumer should read. -/
def frame (event : Event) : Frame :=
  ⟨some event.name, none, event.payload⟩

/-- The lines of the written form. -/
def lines (event : Event) : List (List Char) :=
  [Segment.eventLabel ++ ' ' :: event.name.toList,
    Segment.dataLabel ++ ' ' :: event.payload.toList]

/-- The bytes of the written form before its blank line. -/
def segment (event : Event) : List UInt8 :=
  Text.Utf8.encode (['\n'].intercalate event.lines)

/-- A payload of one line needs no further label. -/
private theorem relabel_of_isLine
    {payload : List Char}
    (isLine : IsLine payload) :
    relabel payload = payload := by
  induction payload with
  | nil =>
      rfl
  | cons character rest inductionHypothesis =>
      obtain ⟨isBreak, isLineRest⟩ := List.forall_mem_cons.mp isLine
      rw [relabel, List.flatMap_cons, isBreak]
      exact congrArg (character :: ·) (inductionHypothesis isLineRest)

variable {event : Event}

/-- A carried event is written as its two lines and a blank line. -/
private theorem render_eq (carried : event.frame.Carriable) :
    event.render = ['\n'].intercalate event.lines ++ ['\n', '\n'] := by
  have filled : event.payload.toList.isEmpty = false := by
    simpa [frame] using carried.filled
  have relabelled : relabel event.payload.toList = event.payload.toList :=
    relabel_of_isLine carried.data
  rw [render, payloadText, filled, if_neg Bool.false_ne_true, relabelled,
    lines, List.intercalate_cons_cons, List.intercalate_singleton]
  simp [Segment.eventLabel, Segment.dataLabel, payloadLabel]

/-- An event that can be carried is written as its segment and a blank line. -/
private theorem encode_render (carried : event.frame.Carriable) :
    Text.Utf8.encode event.render = event.segment ++ Reference.blankLine := by
  rw [render_eq carried, Text.Utf8.encode_append]
  rfl

/-- The lines of an event are those of the frame that it is read as. -/
theorem segment_eq (event : Event) : event.segment = event.frame.segment :=
  rfl

private theorem isWhole_segment (carried : event.frame.Carriable) :
    Reference.IsWhole event.segment := by
  rw [segment_eq]
  exact Frame.isWhole_segment carried

/-- A carried event is read back as its frame. -/
theorem ofSegment?_segment (carried : event.frame.Carriable) :
    Frame.ofSegment? event.segment = some event.frame := by
  rw [segment_eq]
  exact Frame.ofSegment?_segment carried

end Event

/-- A segment without a field, as it is written between events. -/
structure Comment where
  segment : List UInt8
  whole : Reference.IsWhole segment
  comments :
    ∀ line ∈ Segment.lines (Text.Utf8.decodeLossy segment),
      Segment.isComment line = true

namespace Comment

private theorem ofSegment?_segment (comment : Comment) :
    Frame.ofSegment? comment.segment = none :=
  Frame.ofText?_of_comments comment.comments

/-- The comment that shows that a quiet stream is alive. -/
def keepAlive : Comment where
  segment := [58]
  whole := rfl
  comments := by decide

end Comment

/-- What is written to a consumer. -/
inductive Piece where
  | event (event : Event)
  | comment (comment : Comment)

namespace Piece

/-- The event that is written. -/
def event? : Piece → Option Event
  | .event carried =>
      some carried
  | .comment _ =>
      none

/-- The bytes that are written. -/
def bytes : Piece → List UInt8
  | .event carried =>
      Text.Utf8.encode carried.render
  | .comment between =>
      between.segment ++ Reference.blankLine

/-- The bytes before the blank line. -/
def segment : Piece → List UInt8
  | .event carried =>
      carried.segment
  | .comment between =>
      between.segment

/-- Whether the event that is written, if it is one, can be carried. -/
def Carried (piece : Piece) : Prop :=
  ∀ event ∈ piece.event?, event.frame.Carriable

namespace Carried

variable {piece : Piece}

private theorem isWhole_segment (carried : piece.Carried) :
    Reference.IsWhole piece.segment := by
  cases piece with
  | event written =>
      exact Event.isWhole_segment (carried written rfl)
  | comment between =>
      exact between.whole

private theorem bytes_eq (carried : piece.Carried) :
    piece.bytes = piece.segment ++ Reference.blankLine := by
  cases piece with
  | event written =>
      exact Event.encode_render (carried written rfl)
  | comment between =>
      rfl

private theorem ofSegment?_segment (carried : piece.Carried) :
    Frame.ofSegment? piece.segment = piece.event?.map Event.frame := by
  cases piece with
  | event written =>
      exact Event.ofSegment?_segment (carried written rfl)
  | comment between =>
      exact between.ofSegment?_segment

end Carried

variable {pieces : List Piece}

/-- Carried pieces are written as their segments, each with a blank line. -/
private theorem flatMap_bytes (carried : ∀ piece ∈ pieces, piece.Carried) :
    pieces.flatMap bytes =
      (pieces.map segment).flatMap (· ++ Reference.blankLine) := by
  induction pieces with
  | nil =>
      rfl
  | cons piece later inductionHypothesis =>
      obtain ⟨first, rest⟩ := List.forall_mem_cons.mp carried
      rw [List.flatMap_cons, List.map_cons, List.flatMap_cons,
        inductionHypothesis rest, first.bytes_eq]

/-- Only the events among the pieces are read as frames. -/
private theorem filterMap_ofSegment? (carried : ∀ piece ∈ pieces, piece.Carried) :
    (pieces.map segment).filterMap Frame.ofSegment? =
      (pieces.filterMap event?).map Event.frame := by
  induction pieces with
  | nil =>
      rfl
  | cons piece later inductionHypothesis =>
      obtain ⟨first, rest⟩ := List.forall_mem_cons.mp carried
      rw [List.map_cons, List.filterMap_cons, first.ofSegment?_segment,
        inductionHypothesis rest, List.filterMap_cons]
      cases piece.event? <;> rfl

/-- A decoder reads the events of a stream, and nothing else. -/
private theorem feedAll_of_pieces
    (limit : Nat)
    (carried : ∀ piece ∈ pieces, piece.Carried)
    {feedings : List Feeding}
    (all : ∀ feeding ∈ feedings, feeding.asked = none)
    (cut : feedings.flatMap Feeding.chunk = pieces.flatMap bytes) :
    ((Decoder.new limit).feedAll feedings).1 =
        (pieces.filterMap event?).map Event.frame ∧
      ((Decoder.new limit).feedAll feedings).2.buffer = [] := by
  have whole :
      ∀ written ∈ pieces.map segment, Reference.IsWhole written := by
    intro written member
    obtain ⟨piece, among, rfl⟩ := List.mem_map.mp member
    exact (carried piece among).isWhole_segment
  obtain ⟨frames, held⟩ :=
    Decoder.feedAll_of_whole limit all whole
      (cut.trans (flatMap_bytes carried))
  exact ⟨frames.trans (filterMap_ofSegment? carried), held⟩

end Piece

/-- What was decoded can be carried as an event with a name on one line. -/
private theorem carriable_of_mem_feedAll
    {limit : Nat}
    {feedings : List Feeding}
    {frame : Frame}
    (member : frame ∈ ((Decoder.new limit).feedAll feedings).1) :
    (Event.frame ⟨messageName, frame.data⟩).Carriable := by
  have carried := Decoder.carriable_of_mem_feedAll member
  refine ⟨carried.filled, carried.data, ?_, by rintro _ ⟨⟩⟩
  rintro name ⟨⟩
  simp [messageName, IsLine, isLineBreak]

/--
The payloads that are decoded from a source can all be given to the channel of
a consumer.  However that is done, and written with comments anywhere between
the events, a second decoder reads the payloads as they were, each under the
same name and in order, whatever the chunks are on either side; and nothing is
left over.
-/
theorem relayed_payloads_are_read_back
    (sourceLimit readerLimit : Nat)
    (upstream : List Feeding)
    {capacity : Nat}
    {channel : Channel}
    (opens : Channel.new? capacity = some channel) :
    let decoded := ((Decoder.new sourceLimit).feedAll upstream).1
    let events := decoded.map fun frame => ⟨messageName, frame.data⟩
    (∃ uses,
      ((Traffic.start channel).useAll uses).accepted = events ∧
        ((Traffic.start channel).useAll uses).received = events) ∧
    ∀ (uses : List Use) (pieces : List Piece) (downstream : List Feeding),
      ((Traffic.start channel).useAll uses).accepted = events →
      ((Traffic.start channel).useAll uses).received.length =
        ((Traffic.start channel).useAll uses).accepted.length →
      pieces.filterMap Piece.event? =
        ((Traffic.start channel).useAll uses).received →
      (∀ feeding ∈ downstream, feeding.asked = none) →
      downstream.flatMap Feeding.chunk = pieces.flatMap Piece.bytes →
      ((Decoder.new readerLimit).feedAll downstream).1 =
          decoded.map (fun frame => ⟨some "message", none, frame.data⟩) ∧
        ((Decoder.new readerLimit).feedAll downstream).2.buffer = [] := by
  intro decoded events
  constructor
  · have named : isSingleLine messageName = true := by
      decide
    have written : ∀ event ∈ events, isSingleLine event.name = true := by
      intro event member
      obtain ⟨frame, -, rfl⟩ := List.mem_map.mp member
      exact named
    have idle : Traffic.Idle (Traffic.start channel).channel :=
      Traffic.idle_of_new? opens
    have passes := Traffic.useAll_passing idle written
    exact ⟨Traffic.passing events, by rw [passes]; rfl, by rw [passes]; rfl⟩
  · intro uses pieces downstream emits empties writes all cut
    -- What came out begins what went in and is as long, so it is the same.
    have received :
        ((Traffic.start channel).useAll uses).received =
          ((Traffic.start channel).useAll uses).accepted :=
      (Traffic.received_prefix opens uses).eq_of_length empties
    have relayed : pieces.filterMap Piece.event? = events :=
      (writes.trans received).trans emits
    have carried : ∀ piece ∈ pieces, piece.Carried := by
      intro piece among event isEvent
      have member : event ∈ pieces.filterMap Piece.event? :=
        List.mem_filterMap.mpr ⟨piece, among, isEvent⟩
      rw [relayed] at member
      obtain ⟨frame, present, rfl⟩ := List.mem_map.mp member
      exact carriable_of_mem_feedAll present
    obtain ⟨frames, held⟩ :=
      Piece.feedAll_of_pieces readerLimit carried all cut
    rw [relayed, List.map_map] at frames
    exact ⟨frames, held⟩

/-- The events `a` and ` b` with a comment between them. -/
def quietStream : List Piece :=
  [.event ⟨messageName, "a"⟩, .comment .keepAlive,
    .event ⟨messageName, " b"⟩]

/-- Two payloads, one of which begins with a blank, through a small channel. -/
theorem relayed_quietStream :
    quietStream.flatMap Piece.bytes =
        Text.Utf8.encode
          (Event.render ⟨messageName, "a"⟩ ++ Downstream.keepAlive ++
            Event.render ⟨messageName, " b"⟩) ∧
      ((Decoder.new 8).feedAll
          [⟨(quietStream.flatMap Piece.bytes).take 20, none⟩,
            ⟨(quietStream.flatMap Piece.bytes).drop 20, none⟩]).1 =
        [⟨some "message", none, "a"⟩, ⟨some "message", none, " b"⟩] := by
  have opens : Channel.new? 0 = some ⟨1, [], true, true⟩ := by
    decide
  obtain ⟨-, readBack⟩ :=
    relayed_payloads_are_read_back 64 8
      [⟨Text.Utf8.bytesOf "data: a\n\nid: 1\nda", some 1⟩,
        ⟨Text.Utf8.bytesOf "ta:  b\n\n", none⟩]
      opens
  obtain ⟨relayed, -⟩ :=
    readBack
      [.emit ⟨messageName, "a"⟩, .emit ⟨messageName, " b"⟩, .receive,
        .emit ⟨messageName, " b"⟩, .receive]
      quietStream
      [⟨(quietStream.flatMap Piece.bytes).take 20, none⟩,
        ⟨(quietStream.flatMap Piece.bytes).drop 20, none⟩]
      (by decide +kernel) (by decide +kernel) (by decide +kernel) (by simp)
      (by simp)
  refine ⟨by decide +kernel, ?_⟩
  rw [relayed]
  decide +kernel

end EventRelay.Downstream
