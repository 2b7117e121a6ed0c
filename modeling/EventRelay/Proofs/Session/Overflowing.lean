import EventRelay.Proofs.Session.Causes
import EventRelay.Proofs.Session.Exceeding
import EventRelay.Proofs.Session.Hearing

namespace EventRelay.Session

/-!
# Bytes that wait for their blank line

After each chunk the session delivers every event that is complete, and only
then looks how many bytes are left.  While it waits for a read the decoder
holds what follows the last blank line, and that is never too much.  A
connection is left because of what is left over, not because of an event that
was complete.
-/

open Reference (blankLine cut?)
open Timing (Milliseconds)

namespace Event

/-- Whether an event is part of giving an event to the consumer. -/
def isHandover : Event → Bool
  | .offered _ =>
      true
  | .accepted _ =>
      true
  | _ =>
      false

/-- Whether an event is a chunk or part of dealing with one. -/
def isOfChunk : Event → Bool
  | .received _ =>
      true
  | event =>
      event.isHandover

end Event

namespace History

/-- The connection that was opened last. -/
def latest? (history : History) : Option Connection :=
  history.connections.getLast?

/-- Since the latest chunk came, events were only given to the consumer. -/
def AfterChunk (history : History) : Prop :=
  ∃ earlier time bytes deliveries,
    history = earlier ++ ⟨time, .received bytes⟩ :: deliveries ∧
      ∀ timed ∈ deliveries, timed.event.isHandover = true

private theorem latest?_eq (history : History) :
    history.latest? =
      (history.events.foldl Connection.afterEvent []).head? := by
  rw [latest?, connections, List.getLast?_reverse]

namespace AfterChunk

variable {history : History}

private theorem received (history : History) (time : Milliseconds)
    (bytes : List UInt8) :
    AfterChunk (history ++ [⟨time, .received bytes⟩]) :=
  ⟨history, time, bytes, [], rfl, nofun⟩

private theorem concat
    (after : AfterChunk history)
    {timed : Timed}
    (isHandover : timed.event.isHandover = true) :
    AfterChunk (history ++ [timed]) := by
  obtain ⟨earlier, time, bytes, deliveries, rfl, handovers⟩ := after
  refine ⟨earlier, time, bytes, deliveries ++ [timed],
    by rw [List.append_assoc, List.cons_append], ?_⟩
  exact List.forall_mem_append.mpr
    ⟨handovers, List.forall_mem_singleton.mpr isHandover⟩

private theorem last (after : AfterChunk history) :
    ∃ timed ∈ history.getLast?, timed.event.isOfChunk = true := by
  obtain ⟨earlier, time, bytes, deliveries, rfl, handovers⟩ := after
  cases isLast : deliveries.getLast? with
  | none =>
      obtain rfl := List.getLast?_eq_none_iff.mp isLast
      exact ⟨⟨time, .received bytes⟩, by simp, rfl⟩
  | some timed =>
      have isHandover : timed.event.isHandover = true :=
        handovers timed (List.mem_of_getLast? isLast)
      refine ⟨timed, by simp [List.getLast?_cons, isLast], ?_⟩
      cases event : timed.event with
      | offered | accepted =>
          rfl
      | _ =>
          rw [event] at isHandover
          cases isHandover

/-- What a step records last is of a chunk if the new history is so. -/
private theorem ofChunk_of_last
    {now : Milliseconds}
    {events : List Event}
    {event : Event}
    (after : AfterChunk (history ++ events.map (Timed.mk now)))
    (isLast : events.getLast? = some event) :
    event.isOfChunk = true := by
  obtain ⟨timed, isTimed, ofChunk⟩ := after.last
  rw [List.getLast?_append, List.getLast?_map, isLast] at isTimed
  cases isTimed
  exact ofChunk

end AfterChunk

end History

open History (AfterChunk)

/--
Events are delivered after a chunk, and as long as nothing but deliveries
follows a chunk the stream stays open.
-/
structure DealsWithChunks (state : State) : Prop where
  delivering : state.phase.isDelivering = true → AfterChunk state.history
  isOpen : AfterChunk state.history → state.phase.isOpen = true

private theorem Scenario.Transition.dealsWithChunks
    {scenario : Scenario}
    {state next : State}
    {events : List Event}
    (transition : scenario.Transition state events next)
    (before : DealsWithChunks state) :
    DealsWithChunks next := by
  have grown := transition.history
  -- A step that leaves the stream records last what is of no chunk.
  have left {event : Event} (isLast : events.getLast? = some event)
      (notOfChunk : event.isOfChunk = false) :
      ¬AfterChunk next.history := by
    rw [grown]
    intro after
    rw [after.ofChunk_of_last isLast] at notOfChunk
    cases notOfChunk
  cases transition with
  | attemptStopped | dialStopped | streamStopped | readStopped
  | deliveryStopped | emitStopped | turnedAway | pauseStopped =>
      exact ⟨by simp [Phase.isDelivering],
        fun after => (left rfl rfl after).elim⟩
  | called | refused | readFailed | readEnded | readIdle | tooLarge =>
      exact ⟨by rintro ⟨⟩, fun after => (left rfl rfl after).elim⟩
  | opened | reading | drained =>
      exact ⟨by rintro ⟨⟩, fun _ => rfl⟩
  | received phase =>
      refine ⟨fun _ => ?_, fun _ => rfl⟩
      rw [grown]
      exact .received _ _ _
  | offered event phase | accepted phase =>
      refine ⟨fun _ => ?_, fun _ => rfl⟩
      rw [grown]
      exact (before.delivering (by rw [phase]; rfl)).concat rfl
  | dialSilent phase =>
      refine ⟨by simp [State.waitUntil, phase, Phase.isDelivering], ?_⟩
      rw [grown]
      intro after
      have isOpen := before.isOpen (by simpa using after)
      rw [phase] at isOpen
      cases isOpen
  | readSilent phase =>
      exact ⟨by simp [State.waitUntil, phase, Phase.isDelivering],
        fun _ => by simp [State.waitUntil, phase, Phase.isOpen]⟩
  | resumed phase =>
      refine ⟨by rintro ⟨⟩, ?_⟩
      rw [grown]
      intro after
      have isOpen := before.isOpen (by simpa using after)
      rw [phase] at isOpen
      cases isOpen

/-! ## What the decoder holds -/

/-- While a read is awaited no more bytes wait than the limit allows. -/
theorem Scenario.Transition.buffered_le
    {scenario : Scenario}
    {state next : State}
    {events : List Event}
    (transition : scenario.Transition state events next)
    (before : state.phase.isDrained = true →
      state.decoder.buffered ≤ state.decoder.limit)
    (isDrained : next.phase.isDrained = true) :
    next.decoder.buffered ≤ next.decoder.limit := by
  cases transition with
  | opened =>
      exact Nat.zero_le _
  | reading read phase =>
      exact before (by rw [phase]; rfl)
  | readSilent phase =>
      exact before (by rw [phase]; rfl)
  | drained phase next within =>
      simp only [Decoder.checkCapacity] at within
      split at within
      · contradiction
      · next notMore =>
          exact Nat.le_of_not_lt notMore
  | dialSilent phase =>
      simp [State.waitUntil, phase, Phase.isDrained] at isDrained
  | attemptStopped | dialStopped | streamStopped | readStopped
  | deliveryStopped | emitStopped | turnedAway | pauseStopped =>
      simp [Phase.isDrained] at isDrained
  | _ =>
      cases isDrained

namespace Relaying

variable {state : State} {connection : Connection} {decoder : Decoder}

/--
Where nothing is complete, all was taken but what follows the last blank line.
-/
theorem of_next_none
    (relaying : Relaying state connection)
    (nothingPending : state.phase.pending = [])
    (takes : state.decoder.next = (none, decoder)) :
    connection.accepted = messagesOf connection.received ∧
      decoder.buffer = Reference.tail connection.received := by
  obtain ⟨removed, follows, messages, uncut⟩ := relaying.next takes
  obtain ⟨all, tail⟩ := follows.of_uncut (uncut rfl)
  refine ⟨?_, tail⟩
  rw [relaying.taken nothingPending, messagesOf_eq, ← all, messages]
  exact (List.append_nil _).symm

/-- Where all was taken, nothing is complete. -/
theorem next_eq_none
    {found : Option Frame}
    (relaying : Relaying state connection)
    (taken : connection.accepted = messagesOf connection.received)
    (takes : state.decoder.next = (found, decoder)) :
    found = none := by
  obtain ⟨removed, follows, messages, -⟩ := relaying.next takes
  have offered : messagesOf connection.received <+: connection.offered := by
    rw [← taken]
    exact relaying.inOrder.accepted
  have whole := messagesOf_eq connection.received
  rw [follows.segments, messagesOfSegments_append, messages] at whole
  have lengths := congrArg List.length whole
  have atMost := offered.length_le
  simp only [List.length_append, List.length_map] at lengths
  cases found with
  | none =>
      rfl
  | some frame =>
      simp only [Option.toList_some, List.length_singleton] at lengths
      omega

/-- Where all was taken, nothing is pending. -/
theorem pending_eq_nil
    (relaying : Relaying state connection)
    (taken : connection.accepted = messagesOf connection.received) :
    state.phase.pending = [] := by
  have lengths := congrArg List.length relaying.pending
  have atMost := relaying.inOrder.offered.length_le
  rw [List.length_append, taken] at lengths
  exact List.eq_nil_of_length_eq_zero (by omega)

end Relaying

/-- The error about what follows the last blank line of a connection. -/
def Connection.tooLarge (limit : Nat) (connection : Connection) :
    FrameTooLarge :=
  ⟨(Reference.tail connection.received).length, limit⟩

/--
After the latest chunk the consumer took every event that is complete on the
latest connection, and what is left there is too long.
-/
structure Overflows
    (limit : Nat)
    (history : History)
    (connection : Connection) : Prop where
  chunk : AfterChunk history
  latest : history.latest? = some connection
  taken : connection.accepted = messagesOf connection.received
  exceeds : limit < (Reference.tail connection.received).length

namespace Reaches

variable {scenario : Scenario} {state : State}

private theorem dealsWithChunks
    (reaches : Reaches scenario scenario.initial state) :
    DealsWithChunks state := by
  refine reaches.invariant DealsWithChunks
    Scenario.Transition.dealsWithChunks ⟨nofun, ?_⟩
  intro after
  obtain ⟨timed, isLast, ofChunk⟩ := after.last
  cases isLast
  cases ofChunk

/-- The latest connection of an open stream is the one that is relayed. -/
theorem relaying_of_open
    (reaches : Reaches scenario scenario.initial state)
    (isOpen : state.phase.isOpen = true) :
    ∃ connection,
      state.history.latest? = some connection ∧
        Relaying state connection := by
  obtain ⟨latest, earlier, shape, relaying, -⟩ :=
    reaches.divided.accounted.relaying_of_open isOpen
  exact ⟨latest, by rw [History.latest?_eq, shape]; rfl, relaying⟩

/--
While a read is awaited the decoder holds what follows the last blank line,
within the limit.
-/
theorem holds_tail
    (reaches : Reaches scenario scenario.initial state)
    (isDrained : state.phase.isDrained = true) :
    ∃ connection,
      state.history.latest? = some connection ∧
        state.decoder.buffer = Reference.tail connection.received ∧
          state.decoder.buffered ≤ scenario.settings.maxFrameBytes := by
  have isOpen : state.phase.isOpen = true := by
    cases phase : state.phase with
    | streaming | reading =>
        rfl
    | _ =>
        rw [phase] at isDrained
        cases isDrained
  obtain ⟨connection, latest, relaying⟩ := reaches.relaying_of_open isOpen
  obtain ⟨removed, follows, -⟩ := relaying.relayed
  refine ⟨connection, latest,
    (follows.of_uncut (relaying.drained isDrained)).2, ?_⟩
  rw [← reaches.limit]
  exact reaches.invariant
    (fun state => state.phase.isDrained = true →
      state.decoder.buffered ≤ state.decoder.limit)
    Scenario.Transition.buffered_le nofun isDrained

/-- With too many bytes left the session leaves the connection at once. -/
theorem leaves_of_overflows
    {connection : Connection}
    (reaches : Reaches scenario scenario.initial state)
    (overflows :
      Overflows scenario.settings.maxFrameBytes state.history connection) :
    ∃ next,
      scenario.Transition state
        [.closed,
          scenario.backoffEvent state
            (.read (.tooLarge
              (connection.tooLarge scenario.settings.maxFrameBytes)))]
        next ∧
        next.now = state.now := by
  have isOpen := reaches.dealsWithChunks.isOpen overflows.chunk
  obtain ⟨same, latest, relaying⟩ := reaches.relaying_of_open isOpen
  rw [overflows.latest] at latest
  obtain rfl := Option.some.inj latest
  have nothingPending := relaying.pending_eq_nil overflows.taken
  have notDrained : state.phase.isDrained ≠ true := by
    intro isDrained
    obtain ⟨same, latest, tail, atMost⟩ := reaches.holds_tail isDrained
    rw [overflows.latest] at latest
    obtain rfl := Option.some.inj latest
    rw [Decoder.buffered, tail] at atMost
    exact Nat.not_lt_of_le atMost overflows.exceeds
  cases phase : state.phase with
  | delivering reads =>
      rcases takes : state.decoder.next with ⟨found, decoder⟩
      obtain rfl := relaying.next_eq_none overflows.taken takes
      obtain ⟨-, tail⟩ := relaying.of_next_none nothingPending takes
      have limit : decoder.limit = scenario.settings.maxFrameBytes := by
        rw [← reaches.limit, ← state.decoder.next_limit, takes]
      have exceeds :
          decoder.checkCapacity =
            .error
              (connection.tooLarge scenario.settings.maxFrameBytes) := by
        rw [Decoder.checkCapacity, Decoder.buffered, tail, limit,
          if_pos overflows.exceeds]
        rfl
      exact ⟨_, .tooLarge phase takes exceeds, rfl⟩
  | emitting due event reads =>
      rw [phase] at nothingPending
      cases nothingPending
  | streaming | reading =>
      exact (notDrained (by rw [phase]; rfl)).elim
  | _ =>
      rw [phase] at isOpen
      cases isOpen

/-- A connection that is left because of too many bytes has too many left. -/
theorem overflows_of_tooLarge
    {before after : History}
    {time failures delay : Nat}
    {error : FrameTooLarge}
    (reaches : Reaches scenario scenario.initial state)
    (split :
      state.history =
        before ++
          ⟨time, .backedOff (.read (.tooLarge error)) failures delay⟩ ::
            after) :
    ∃ earlier connection,
      before = earlier ++ [⟨time, .closed⟩] ∧
        Overflows scenario.settings.maxFrameBytes earlier connection ∧
          error = connection.tooLarge scenario.settings.maxFrameBytes := by
  obtain ⟨origin, -, record, toOrigin, -, shape, cause⟩ := reaches.cause split
  cases cause with
  | @tooLarge reads decoder error phase takes exceeds =>
      obtain ⟨connection, latest, relaying⟩ :=
        toOrigin.relaying_of_open (by rw [phase]; rfl)
      obtain ⟨taken, tail⟩ :=
        relaying.of_next_none (by rw [phase]; rfl) takes
      have limit : decoder.limit = scenario.settings.maxFrameBytes := by
        rw [← toOrigin.limit, ← origin.decoder.next_limit, takes]
      rw [Decoder.checkCapacity, Decoder.buffered, tail, limit] at exceeds
      split at exceeds
      · next more =>
          exact ⟨origin.history, connection, shape,
            ⟨toOrigin.dealsWithChunks.delivering (by rw [phase]; rfl),
              latest, taken, more⟩,
            (Except.error.inj exceeds).symm⟩
      · contradiction

end Reaches

/-! ## Runs -/

/-- Of a chunk and its deliveries a step records only the last event. -/
private theorem Scenario.Transition.notOfChunk_of_dropLast
    {scenario : Scenario}
    {state next : State}
    {events : List Event}
    (transition : scenario.Transition state events next) :
    ∀ event ∈ events.dropLast, event.isOfChunk = false := by
  cases transition <;>
    simp [Event.isOfChunk, Event.isHandover]

/--
What follows a chunk and its deliveries was recorded by one step from there.
-/
private theorem Reaches.step_after_chunk
    {scenario : Scenario}
    {state : State}
    {before after : History}
    {timed : Timed}
    (reaches : Reaches scenario scenario.initial state)
    (split : state.history = before ++ timed :: after)
    (chunk : AfterChunk before) :
    ∃ origin next events continued,
      Reaches scenario scenario.initial origin ∧
        scenario.Transition origin events next ∧
          origin.history = before ∧
            timed :: after = events.map (Timed.mk next.now) ++ continued := by
  obtain ⟨latest, isLatest, ofChunk⟩ := chunk.last
  rcases reaches.recorded split with
      ⟨rest, atStart⟩ |
      ⟨origin, next, lead, later, toOrigin, transition, -, sameTime,
        rfl, continued, rfl, -⟩
  · -- Nothing stands before the start.
    rw [Scenario.history_initial, List.singleton_eq_append_iff] at atStart
    rcases atStart with ⟨rfl, -⟩ | ⟨-, impossible⟩
    · cases isLatest
    · cases impossible
  · cases last : lead.getLast? with
    | some event =>
        -- A step that records a chunk or a delivery records nothing after it.
        have notLast : event ∈ (lead ++ timed.event :: later).dropLast := by
          rw [List.dropLast_append_of_ne_nil (List.cons_ne_nil _ _)]
          exact List.mem_append_left _ (List.mem_of_getLast? last)
        rw [List.getLast?_append, List.getLast?_map, last] at isLatest
        cases isLatest
        rw [transition.notOfChunk_of_dropLast event notLast] at ofChunk
        cases ofChunk
    | none =>
        obtain rfl := List.getLast?_eq_none_iff.mp last
        obtain ⟨time, event⟩ := timed
        obtain rfl : time = next.now := sameTime
        exact ⟨origin, next, event :: later, continued, toOrigin, transition,
          (List.append_nil _).symm, rfl⟩

/-- What is recorded when a connection is left because of too many bytes. -/
def Connection.leaving
    (limit : Nat)
    (connection : Connection)
    (time : Milliseconds)
    (failures : Nat)
    (delay : Milliseconds) : History :=
  [⟨time, .closed⟩,
    ⟨time, .backedOff (.read (.tooLarge (connection.tooLarge limit)))
      failures delay⟩]

/-- With too many bytes left, leaving is what comes next. -/
theorem Reaches.leaving_of_overflows
    {scenario : Scenario}
    {state : State}
    {before after : History}
    {connection : Connection}
    (reaches : Reaches scenario scenario.initial state)
    (split : state.history = before ++ after)
    (overflows :
      Overflows scenario.settings.maxFrameBytes before connection) :
    ∃ time failures delay,
      let left := connection.leaving scenario.settings.maxFrameBytes time
        failures delay
      (after = [] ∧
          ∃ next,
            scenario.step? state = some next ∧
              next.now = state.now ∧
                next.history = state.history ++ left) ∨
        left <+: after := by
  cases after with
  | nil =>
      rw [List.append_nil] at split
      rw [← split] at overflows
      obtain ⟨next, leaves, now⟩ := reaches.leaves_of_overflows overflows
      exact ⟨_, _, _, .inl ⟨rfl, next, leaves.step?_eq, now, leaves.history⟩⟩
  | cons timed after =>
      obtain ⟨origin, next, events, continued, toOrigin, transition, rfl,
        shape⟩ := reaches.step_after_chunk split overflows.chunk
      obtain ⟨same, leaves, -⟩ := toOrigin.leaves_of_overflows overflows
      obtain rfl : next = same :=
        Option.some.inj (transition.step?_eq.symm.trans leaves.step?_eq)
      have recorded := transition.history.symm.trans leaves.history
      rw [List.append_cancel_left_eq] at recorded
      rw [shape, recorded]
      exact ⟨_, _, _, .inr (List.prefix_append _ continued)⟩

/-! ## Whole events -/

/--
A chunk brings a whole event: after some bytes that end what came before, the
event stands there up to the first blank line.
-/
structure BringsWhole
    (received chunk front event rest : List UInt8) : Prop where
  shape : chunk = front ++ (event ++ blankLine ++ rest)
  boundary : Reference.tail (received ++ front) = []
  whole : cut? (event ++ blankLine ++ rest) = some (event, rest)

namespace BringsWhole

variable {received chunk front event rest : List UInt8}

/-- What is left after the chunk is what is left after the event. -/
theorem tail_eq (brings : BringsWhole received chunk front event rest) :
    Reference.tail (received ++ chunk) = Reference.tail rest := by
  rw [brings.shape, ← List.append_assoc, Reference.tail_append,
    brings.boundary, List.nil_append, Reference.tail_of_cut brings.whole]

/-- The message of the event has its place among all messages. -/
theorem messagesOf_eq (brings : BringsWhole received chunk front event rest) :
    messagesOf (received ++ chunk) =
      messagesOf (received ++ front) ++ messagesOfSegments [event] ++
        messagesOf rest := by
  rw [Session.messagesOf_eq, Session.messagesOf_eq, Session.messagesOf_eq,
    brings.shape, ← List.append_assoc received, Reference.segments_append,
    brings.boundary, List.nil_append, Reference.segments_of_cut brings.whole,
    messagesOfSegments_append, List.append_assoc,
    ← messagesOfSegments_append [event]]
  rfl

end BringsWhole

namespace Connection

/-- Deliveries do not change what was received. -/
private theorem received_of_handovers
    (latest : Connection)
    (earlier : List Connection)
    {events : List Event}
    (handovers : ∀ event ∈ events, event.isHandover = true) :
    ∃ connection,
      events.foldl afterEvent (latest :: earlier) = connection :: earlier ∧
        connection.received = latest.received := by
  induction events generalizing latest with
  | nil =>
      exact ⟨latest, rfl, rfl⟩
  | cons event events inductionHypothesis =>
      obtain ⟨isHandover, others⟩ := List.forall_mem_cons.mp handovers
      cases event with
      | offered | accepted =>
          obtain ⟨connection, shape, received⟩ := inductionHypothesis _ others
          exact ⟨connection, shape, received⟩
      | _ =>
          cases isHandover

end Connection

/-- A chunk adds its bytes to what was received on the latest connection. -/
private theorem History.received_of_latest?
    {before deliveries : History}
    {time : Milliseconds}
    {bytes : List UInt8}
    {latest connection : Connection}
    (wasLatest : before.latest? = some latest)
    (handovers : ∀ timed ∈ deliveries, timed.event.isHandover = true)
    (isLatest :
      History.latest? (before ++ ⟨time, .received bytes⟩ :: deliveries) =
        some connection) :
    connection.received = latest.received ++ bytes := by
  rw [History.latest?_eq] at wasLatest isLatest
  obtain ⟨earlier, shape⟩ := List.head?_eq_some_iff.mp wasLatest
  obtain ⟨last, folded, received⟩ :=
    Connection.received_of_handovers
      { latest with received := latest.received ++ bytes } earlier
      (List.forall_mem_map.mpr handovers)
  have whole :
      (History.events
        (before ++ ⟨time, .received bytes⟩ :: deliveries)).foldl
          Connection.afterEvent [] = last :: earlier := by
    rw [History.events, List.map_append, List.foldl_append]
    change List.foldl _ (before.events.foldl Connection.afterEvent []) _ = _
    rw [shape]
    exact folded
  rw [whole] at isLatest
  obtain rfl := Option.some.inj isLatest
  exact received

/-- What the limit means to the bytes that wait for their blank line. -/
structure BoundsWaiting
    (limit : Nat)
    (scenario : Scenario)
    (state : State) : Prop where
  /-- While a read is awaited, what follows the last blank line waits, and not
      more of it than the limit allows. -/
  holds :
    state.phase.isDrained = true →
    ∃ connection,
      state.history.latest? = some connection ∧
        state.decoder.buffer = Reference.tail connection.received ∧
        state.decoder.buffered ≤ limit
  /-- With too many bytes left, leaving is what came next or comes next. -/
  leaves :
    ∀ {before after connection},
      state.history = before ++ after →
      Overflows limit before connection →
      ∃ time failures delay,
        let left := connection.leaving limit time failures delay
        (after = [] ∧
            ∃ next,
              scenario.step? state = some next ∧
                next.now = state.now ∧
                next.history = state.history ++ left) ∨
          left <+: after
  /-- A connection that was left because of too many bytes had too many left,
      as many as the error says. -/
  left :
    ∀ {before after time error failures delay},
      state.history =
        before ++
          ⟨time, .backedOff (.read (.tooLarge error)) failures delay⟩ ::
            after →
      ∃ earlier connection,
        before = earlier ++ [⟨time, .closed⟩] ∧
          Overflows limit earlier connection ∧
          error = connection.tooLarge limit
  /-- Where a connection was left because of too many bytes, an event that the
      latest chunk brought whole was taken, and only what follows it counted. -/
  whole :
    ∀ {before deliveries after : History} {latest : Connection}
        {bytes front event rest error}
        {received closed failed failures delay : Nat},
      state.history =
        (before ++ ⟨received, .received bytes⟩ :: deliveries) ++
          ⟨closed, .closed⟩ ::
            ⟨failed, .backedOff (.read (.tooLarge error)) failures delay⟩ ::
              after →
      (∀ timed ∈ deliveries, timed.event.isHandover = true) →
      before.latest? = some latest →
      BringsWhole latest.received bytes front event rest →
      ∃ connection,
        History.latest? (before ++ ⟨received, .received bytes⟩ :: deliveries) =
            some connection ∧
          connection.accepted =
            messagesOf (latest.received ++ front) ++
              messagesOfSegments [event] ++ messagesOf rest ∧
          error.buffered = (Reference.tail rest).length ∧
          limit < error.buffered

/--
Whenever a session waits for a read, its decoder holds exactly the bytes
received on the connection after the last blank line, and no more of them than
the limit allows.  A session leaves a connection because of too many bytes if
and only if, after a chunk and after the consumer took every event that was
complete, more bytes than that are left; the error says how many. A whole
event that one chunk brings is taken whatever its length, and only the bytes
after it count.
-/
theorem waiting_bytes_are_bounded
    {scenario : Scenario}
    {state : State}
    (reaches : Reaches scenario scenario.initial state) :
    BoundsWaiting scenario.settings.maxFrameBytes scenario state where
  holds :=
    reaches.holds_tail
  leaves :=
    reaches.leaving_of_overflows
  left :=
    reaches.overflows_of_tooLarge
  whole := by
    intro before deliveries after latest bytes front event rest error
      received closed failed failures delay split handovers wasLatest brings
    rw [List.append_cons] at split
    obtain ⟨earlier, connection, shape, overflows, same⟩ :=
      reaches.overflows_of_tooLarge split
    obtain ⟨rfl, -⟩ := List.append_inj' shape rfl
    have whole :=
      History.received_of_latest? wasLatest handovers overflows.latest
    have tail : Reference.tail connection.received = Reference.tail rest := by
      rw [whole, brings.tail_eq]
    have exceeds := overflows.exceeds
    rw [tail] at exceeds
    refine ⟨connection, overflows.latest, ?_, ?_, ?_⟩
    · rw [overflows.taken, whole, brings.messagesOf_eq]
    · rw [same, Connection.tooLarge, tail]
    · rw [same, Connection.tooLarge, tail]
      exact exceeds

/-- An event longer than the limit, and the beginning of another one. -/
def longEvent : List UInt8 :=
  Text.Utf8.bytesOf "data: aaaaaaaaaaaaaa

data: bbbbb"

/-- A long event is taken; the connection is left because of what follows. -/
theorem left_after_longEvent :
    let scenario := Scenario.streamOf 8 [longEvent]
    let state := scenario.stateAt 5
    Reaches scenario scenario.initial state ∧
      state.history.deliveries = [⟨"message", "aaaaaaaaaaaaaa"⟩] ∧
        ∃ earlier connection,
          state.history =
              earlier ++ connection.leaving 8 5 1 5 ∧
            Overflows 8 earlier connection ∧
              connection.tooLarge 8 = ⟨11, 8⟩ := by
  intro scenario state
  have reaches := scenario.reaches_stateAt 5
  have split :
      state.history =
        state.history.dropLast ++
          ⟨5, .backedOff (.read (.tooLarge ⟨11, 8⟩)) 1 5⟩ :: [] := by
    decide +kernel
  obtain ⟨earlier, connection, shape, overflows, same⟩ :=
    (waiting_bytes_are_bounded reaches).left split
  refine ⟨reaches, by decide +kernel, earlier, connection, ?_, overflows,
    same.symm⟩
  rw [split, shape, List.append_assoc, same]
  rfl

end EventRelay.Session
