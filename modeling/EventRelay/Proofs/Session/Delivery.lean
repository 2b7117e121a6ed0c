import EventRelay.Proofs.Frame.Refinement
import EventRelay.Proofs.Session.OneStream

namespace EventRelay.Session

/-!
# Delivery

A history is divided into connections.  While a connection lasts, the frames
that left the decoder are those whose events the consumer took, and at most
one event that is being offered.  A connection is left for another one only
when the decoder has no complete segment, and then the consumer has taken the
event of every frame of that connection.
-/

open Reference (cut?)

/-- What a history tells of one connection. -/
structure Connection where
  /-- The bytes of all chunks. -/
  received : List UInt8
  /-- The events that were given to the consumer. -/
  offered : List Downstream.Event
  /-- The events that the consumer took. -/
  accepted : List Downstream.Event
  /-- Why the session left it to connect again, if it did. -/
  left : Option BackoffReason
  deriving Repr, DecidableEq

/-- The events that a body is relayed as. -/
def messagesOf (body : List UInt8) : List Downstream.Event :=
  (Reference.payloads body).map fun payload =>
    ⟨Downstream.messageName, payload⟩

namespace Connection

/-- The connections after one more event, the latest one first. -/
def afterEvent (connections : List Connection) (event : Event) :
    List Connection :=
  match event, connections with
  | .opened _, connections =>
      ⟨[], [], [], none⟩ :: connections
  | .received bytes, latest :: earlier =>
      { latest with received := latest.received ++ bytes } :: earlier
  | .offered event, latest :: earlier =>
      { latest with offered := latest.offered ++ [event] } :: earlier
  | .accepted event, latest :: earlier =>
      { latest with accepted := latest.accepted ++ [event] } :: earlier
  | .backedOff (.read error) _ _, latest :: earlier =>
      { latest with left := some (.read error) } :: earlier
  | .backedOff .endOfStream _ _, latest :: earlier =>
      { latest with left := some .endOfStream } :: earlier
  | _, connections =>
      connections

/-- The consumer was given, and took, the first events of what came. -/
structure InOrder (connection : Connection) : Prop where
  offered : connection.offered <+: messagesOf connection.received
  accepted : connection.accepted <+: connection.offered

/-- Everything that came on the connection was taken before it was left. -/
structure Finished (connection : Connection) : Prop where
  left : connection.left ≠ none
  offered : connection.offered = messagesOf connection.received
  accepted : connection.accepted = messagesOf connection.received

private theorem Finished.inOrder
    {connection : Connection}
    (finished : connection.Finished) :
    connection.InOrder where
  offered :=
    ⟨[], by rw [List.append_nil, finished.offered]⟩
  accepted :=
    ⟨[], by rw [List.append_nil, finished.offered, finished.accepted]⟩

end Connection

/-- The event that is given to the consumer. -/
def Event.offer? : Event → Option Downstream.Event
  | .offered event =>
      some event
  | _ =>
      none

namespace History

/-- The events given to the consumer, in order. -/
def offers (history : History) : List Downstream.Event :=
  history.filterMap (·.event.offer?)

/-- The connections of a history, in the order in which they were opened. -/
def connections (history : History) : List Connection :=
  (history.events.foldl Connection.afterEvent []).reverse

end History

/-- The events of the frames of some segments. -/
def messagesOfSegments (segments : List (List UInt8)) :
    List Downstream.Event :=
  (segments.filterMap Frame.ofSegment?).map fun frame =>
    ⟨Downstream.messageName, frame.data⟩

theorem messagesOf_eq (body : List UInt8) :
    messagesOf body = messagesOfSegments (Reference.segments body) := by
  simp [messagesOf, messagesOfSegments, Reference.payloads, Reference.frames,
    Function.comp_def]

theorem messagesOfSegments_append (first second : List (List UInt8)) :
    messagesOfSegments (first ++ second) =
      messagesOfSegments first ++ messagesOfSegments second := by
  simp [messagesOfSegments]

namespace Phase

/-- The event that is being offered. -/
def pending : Phase → List Downstream.Event
  | .emitting _ event _ =>
      [event]
  | _ =>
      []

/-- Whether all complete frames have been dealt with. -/
def isDrained : Phase → Bool
  | .streaming _ =>
      true
  | .reading _ _ _ _ =>
      true
  | _ =>
      false

end Phase

/--
What was given to the consumer is what left the decoder, and all of it was
taken but for the event that is pending.
-/
structure Relaying (state : State) (connection : Connection) : Prop where
  notLeft : connection.left = none
  pending : connection.accepted ++ state.phase.pending = connection.offered
  relayed :
    ∃ removed,
      state.decoder.Follows connection.received removed ∧
        connection.offered = messagesOfSegments removed
  drained :
    state.phase.isDrained = true → cut? state.decoder.buffer = none

namespace Relaying

/-- The consumer was given the first events of what was received. -/
theorem inOrder
    {state : State}
    {connection : Connection}
    (relaying : Relaying state connection) :
    connection.InOrder where
  offered := by
    obtain ⟨removed, follows, offered⟩ := relaying.relayed
    rw [messagesOf_eq, follows.segments, messagesOfSegments_append, offered]
    exact List.prefix_append _ _
  accepted := ⟨_, relaying.pending⟩

/-- With nothing pending, all that was given to the consumer was taken. -/
theorem taken
    {state : State}
    {connection : Connection}
    (relaying : Relaying state connection)
    (nothingPending : state.phase.pending = []) :
    connection.accepted = connection.offered := by
  rw [← relaying.pending, nothingPending, List.append_nil]

/-- The next frame of the decoder is that of the next event. -/
theorem next
    {state : State}
    {connection : Connection}
    {found : Option Frame}
    {decoder : Decoder}
    (relaying : Relaying state connection)
    (takes : state.decoder.next = (found, decoder)) :
    ∃ removed,
      decoder.Follows connection.received removed ∧
        messagesOfSegments removed =
          connection.offered ++
            found.toList.map (⟨Downstream.messageName, ·.data⟩) ∧
        (found = none → cut? decoder.buffer = none) := by
  obtain ⟨before, follows, offered⟩ := relaying.relayed
  obtain ⟨more, later, frames, uncut⟩ := follows.searched.follows_next
  rw [takes] at later frames uncut
  refine ⟨before ++ more, follows.trans later, ?_, uncut⟩
  rw [messagesOfSegments_append, ← offered, messagesOfSegments, frames]

/-- A stream goes on as before if neither decoder nor pending event change. -/
theorem keep
    {state next : State}
    {connection : Connection}
    (relaying : Relaying state connection)
    (decoder : next.decoder = state.decoder)
    (pending : next.phase.pending = state.phase.pending)
    (drained :
      next.phase.isDrained = true → state.phase.isDrained = true) :
    Relaying next connection where
  notLeft := relaying.notLeft
  pending := by
    rw [pending]
    exact relaying.pending
  relayed := by
    rw [decoder]
    exact relaying.relayed
  drained := by
    rw [decoder]
    exact fun isDrained => relaying.drained (drained isDrained)

end Relaying

/-- A connection is finished if it is left with nothing complete or pending. -/
theorem Connection.Finished.of_uncut
    {connection : Connection}
    {decoder : Decoder}
    {removed : List (List UInt8)}
    (reason : BackoffReason)
    (taken : connection.accepted = connection.offered)
    (follows : decoder.Follows connection.received removed)
    (offered : connection.offered = messagesOfSegments removed)
    (uncut : cut? decoder.buffer = none) :
    Finished { connection with left := some reason } := by
  have all : connection.offered = messagesOf connection.received := by
    rw [messagesOf_eq, offered, (follows.of_uncut uncut).1]
  exact ⟨Option.some_ne_none reason, all, taken.trans all⟩

/-- A connection on which a read is under way can be left at any time. -/
theorem Relaying.leave
    {state : State}
    {connection : Connection}
    (relaying : Relaying state connection)
    (reason : BackoffReason)
    (isDrained : state.phase.isDrained = true)
    (nothingPending : state.phase.pending = []) :
    Connection.Finished { connection with left := some reason } := by
  obtain ⟨removed, follows, offered⟩ := relaying.relayed
  exact .of_uncut reason (relaying.taken nothingPending) follows offered
    (relaying.drained isDrained)

/-! ## All connections -/

/-- Connections, the latest one first, as a state has left them. -/
inductive Accounted (state : State) : List Connection → Prop where
  /-- No stream is open, and every earlier one was dealt with. -/
  | between {connections : List Connection}
      (closed : state.phase.isOpen = false)
      (finished : ∀ connection ∈ connections, connection.Finished) :
      Accounted state connections
  /-- The latest stream is open. -/
  | during {latest : Connection} {earlier : List Connection}
      (isOpen : state.phase.isOpen = true)
      (relaying : Relaying state latest)
      (finished : ∀ connection ∈ earlier, connection.Finished) :
      Accounted state (latest :: earlier)
  /-- The session was stopped while the latest stream was open. -/
  | stopped {latest : Connection} {earlier : List Connection}
      {termination : Termination}
      (phase : state.phase = .ended termination)
      (notLeft : latest.left = none)
      (inOrder : latest.InOrder)
      (finished : ∀ connection ∈ earlier, connection.Finished) :
      Accounted state (latest :: earlier)

namespace Accounted

/-- While no stream is open, every stream was dealt with. -/
theorem finished_of_closed
    {state : State}
    {connections : List Connection}
    (accounted : Accounted state connections)
    (closed : state.phase.isOpen = false)
    (running : ∀ termination, state.phase ≠ .ended termination) :
    ∀ connection ∈ connections, connection.Finished := by
  cases accounted with
  | between _ finished =>
      exact finished
  | during isOpen =>
      rw [closed] at isOpen
      cases isOpen
  | stopped phase =>
      exact (running _ phase).elim

/-- An open stream is the latest one. -/
theorem relaying_of_open
    {state : State}
    {connections : List Connection}
    (accounted : Accounted state connections)
    (isOpen : state.phase.isOpen = true) :
    ∃ latest earlier,
      connections = latest :: earlier ∧
        Relaying state latest ∧
        ∀ connection ∈ earlier, connection.Finished := by
  cases accounted with
  | between closed =>
      rw [isOpen] at closed
      cases closed
  | during _ relaying finished =>
      exact ⟨_, _, rfl, relaying, finished⟩
  | stopped phase =>
      rw [phase] at isOpen
      cases isOpen

/-- A stop leaves the connections as they are. -/
theorem stop
    {state next : State}
    {connections : List Connection}
    {termination : Termination}
    (accounted : Accounted state connections)
    (phase : next.phase = .ended termination) :
    Accounted next connections := by
  cases accounted with
  | between closed finished =>
      exact .between (by rw [phase]; rfl) finished
  | during isOpen relaying finished =>
      exact .stopped phase relaying.notLeft relaying.inOrder finished
  | stopped _ notLeft inOrder finished =>
      exact .stopped phase notLeft inOrder finished

/-- Every connection is in order, and all but the latest are finished. -/
theorem inOrder
    {state : State}
    {connections : List Connection}
    (accounted : Accounted state connections) :
    (∀ connection ∈ connections,
        connection.InOrder ∧ (connection.left ≠ none → connection.Finished)) ∧
      ∀ connection ∈ connections.tail, connection.Finished := by
  cases accounted with
  | between _ finished =>
      exact ⟨fun connection member =>
          ⟨(finished connection member).inOrder,
            fun _ => finished connection member⟩,
        fun connection member =>
          finished connection (List.mem_of_mem_tail member)⟩
  | during _ relaying finished =>
      refine ⟨?_, finished⟩
      intro connection member
      rcases List.mem_cons.mp member with rfl | member
      · exact ⟨relaying.inOrder, fun left => (left relaying.notLeft).elim⟩
      · exact ⟨(finished connection member).inOrder,
          fun _ => finished connection member⟩
  | stopped _ notLeft inOrder finished =>
      refine ⟨?_, finished⟩
      intro connection member
      rcases List.mem_cons.mp member with rfl | member
      · exact ⟨inOrder, fun left => (left notLeft).elim⟩
      · exact ⟨(finished connection member).inOrder,
          fun _ => finished connection member⟩

end Accounted

namespace Scenario.Transition

/-- A transition keeps account of the connections. -/
theorem accounted
    {scenario : Scenario}
    {state next : State}
    {events : List Event}
    {connections : List Connection}
    (transition : scenario.Transition state events next)
    (before : Accounted state connections) :
    Accounted next (events.foldl Connection.afterEvent connections) := by
  -- Stops change nothing, closed phases have nothing pending, and in open
  -- phases the latest connection is the one to be kept account of.
  cases transition with
  | attemptStopped phase | dialStopped phase | streamStopped phase
  | readStopped phase | deliveryStopped phase | emitStopped phase
  | turnedAway phase | pauseStopped phase =>
      exact before.stop (State.phase_stop _ _)
  | called _ phase | refused phase | resumed phase =>
      exact .between rfl
        (before.finished_of_closed (by rw [phase]; rfl) (by simp [phase]))
  | @dialSilent _ time phase =>
      have closed : (state.waitUntil time).phase.isOpen = false := by
        rw [State.waitUntil, phase]
        rfl
      exact .between closed (before.finished_of_closed closed (by simp [phase]))
  | opened phase =>
      have follows : state.decoder.reset.Follows [] [] :=
        .refl (.new state.decoder.limit)
      exact .during rfl
        { notLeft := rfl
          pending := rfl
          relayed := ⟨[], follows, rfl⟩
          drained := fun _ => rfl }
        (before.finished_of_closed (by rw [phase]; rfl) (by simp [phase]))
  | reading _ phase =>
      obtain ⟨latest, earlier, rfl, relaying, finished⟩ :=
        before.relaying_of_open (by rw [phase]; rfl)
      exact .during rfl
        (relaying.keep rfl (by rw [phase]; rfl) (by rw [phase]; exact id))
        finished
  | @readSilent _ _ _ time phase =>
      obtain ⟨latest, earlier, rfl, relaying, finished⟩ :=
        before.relaying_of_open (by rw [phase]; rfl)
      exact .during (by rw [State.waitUntil, phase]; rfl)
        (relaying.keep rfl rfl id) finished
  | received phase =>
      obtain ⟨latest, earlier, rfl, relaying, finished⟩ :=
        before.relaying_of_open (by rw [phase]; rfl)
      obtain ⟨removed, follows, offered⟩ := relaying.relayed
      have taken := relaying.taken (by rw [phase]; rfl)
      exact .during rfl
        { notLeft := relaying.notLeft
          pending := (List.append_nil _).trans taken
          relayed := ⟨removed, follows.feed _, offered⟩
          drained := Bool.noConfusion }
        finished
  | readFailed phase | readEnded phase | readIdle _ phase =>
      obtain ⟨latest, earlier, rfl, relaying, finished⟩ :=
        before.relaying_of_open (by rw [phase]; rfl)
      refine .between rfl (List.forall_mem_cons.mpr ⟨?_, finished⟩)
      exact relaying.leave _ (by rw [phase]; rfl) (by rw [phase]; rfl)
  | offered _ phase takes wakes shape =>
      obtain ⟨latest, earlier, rfl, relaying, finished⟩ :=
        before.relaying_of_open (by rw [phase]; rfl)
      obtain ⟨removed, follows, messages, -⟩ := relaying.next takes
      have taken := relaying.taken (by rw [phase]; rfl)
      subst shape
      exact .during rfl
        { notLeft := relaying.notLeft
          pending := congrArg (· ++ _) taken
          relayed := ⟨removed, follows, messages.symm⟩
          drained := Bool.noConfusion }
        finished
  | tooLarge phase takes =>
      obtain ⟨latest, earlier, rfl, relaying, finished⟩ :=
        before.relaying_of_open (by rw [phase]; rfl)
      obtain ⟨removed, follows, messages, uncut⟩ := relaying.next takes
      refine .between rfl (List.forall_mem_cons.mpr ⟨?_, finished⟩)
      exact .of_uncut _ (relaying.taken (by rw [phase]; rfl)) follows
        (by simpa using messages.symm) (uncut rfl)
  | drained phase takes =>
      obtain ⟨latest, earlier, rfl, relaying, finished⟩ :=
        before.relaying_of_open (by rw [phase]; rfl)
      obtain ⟨removed, follows, messages, uncut⟩ := relaying.next takes
      have taken := relaying.taken (by rw [phase]; rfl)
      exact .during rfl
        { notLeft := relaying.notLeft
          pending := (List.append_nil _).trans taken
          relayed := ⟨removed, follows, by simpa using messages.symm⟩
          drained := fun _ => uncut rfl }
        finished
  | accepted phase =>
      obtain ⟨latest, earlier, rfl, relaying, finished⟩ :=
        before.relaying_of_open (by rw [phase]; rfl)
      have pending := relaying.pending
      rw [phase] at pending
      exact .during rfl
        { notLeft := relaying.notLeft
          pending := (List.append_nil _).trans pending
          relayed := relaying.relayed
          drained := Bool.noConfusion }
        finished

/-- While no stream is open, none is read and no event is delivered. -/
theorem usesStream_eq_false
    {scenario : Scenario}
    {state next : State}
    {events : List Event}
    (transition : scenario.Transition state events next)
    (closed : state.phase.isOpen = false) :
    ∀ event ∈ events, event.usesStream = false := by
  cases transition with
  | streamStopped phase | reading _ phase | readStopped phase
  | received phase | readFailed phase | readEnded phase | readSilent phase
  | readIdle _ phase | deliveryStopped phase | offered _ phase
  | tooLarge phase | drained phase | emitStopped phase | accepted phase
  | turnedAway phase =>
      rw [phase] at closed
      cases closed
  | _ =>
      simp [Event.usesStream, backoffEvent]

end Scenario.Transition

/-! ## All deliveries -/

namespace Connection

/-- The events of one more delivery belong to the latest connection. -/
private theorem flatMap_afterEvent
    {connections : List Connection}
    {event : Event}
    (opened : connections ≠ [] ∨ event.usesStream = false) :
    (afterEvent connections event).reverse.flatMap accepted =
        connections.reverse.flatMap accepted ++ event.delivery?.toList ∧
      (afterEvent connections event).reverse.flatMap offered =
        connections.reverse.flatMap offered ++ event.offer?.toList := by
  cases connections with
  | nil =>
      cases event <;>
        simp_all [afterEvent, Event.usesStream, Event.delivery?,
          Event.offer?]
  | cons latest earlier =>
      cases event with
      | backedOff reason failures delay =>
          cases reason <;>
            simp [afterEvent, Event.delivery?, Event.offer?]
      | _ =>
          simp [afterEvent, Event.delivery?, Event.offer?]

private theorem afterEvent_ne_nil
    {connections : List Connection}
    (opened : connections ≠ [])
    (event : Event) :
    afterEvent connections event ≠ [] := by
  cases connections with
  | nil =>
      exact (opened rfl).elim
  | cons latest earlier =>
      cases event with
      | backedOff reason failures delay =>
          cases reason <;> simp [afterEvent]
      | _ =>
          simp [afterEvent]

/-- All deliveries of a list of events belong to its connections. -/
private theorem flatMap_foldl_afterEvent
    {connections : List Connection}
    {events : List Event}
    (opened :
      connections ≠ [] ∨ ∀ event ∈ events, event.usesStream = false) :
    (events.foldl afterEvent connections).reverse.flatMap accepted =
        connections.reverse.flatMap accepted ++
          events.filterMap Event.delivery? ∧
      (events.foldl afterEvent connections).reverse.flatMap offered =
        connections.reverse.flatMap offered ++
          events.filterMap Event.offer? := by
  induction events generalizing connections with
  | nil =>
      simp
  | cons event later inductionHypothesis =>
      have present := opened.imp_right (· event List.mem_cons_self)
      have afterwards :
          afterEvent connections event ≠ [] ∨
            ∀ event ∈ later, event.usesStream = false :=
        opened.imp (afterEvent_ne_nil · event)
          (fun unused event member =>
            unused event (List.mem_cons_of_mem _ member))
      obtain ⟨accepted, offered⟩ := flatMap_afterEvent present
      obtain ⟨acceptedLater, offeredLater⟩ := inductionHypothesis afterwards
      rw [List.foldl_cons, acceptedLater, offeredLater, accepted, offered,
        List.append_assoc, List.append_assoc]
      constructor
      · cases taken : event.delivery? <;> simp [taken]
      · cases given : event.offer? <;> simp [given]

end Connection

/-- A history whose deliveries are those of its connections. -/
structure Divided (state : State) : Prop where
  accounted :
    Accounted state (state.history.events.foldl Connection.afterEvent [])
  deliveries :
    state.history.connections.flatMap Connection.accepted =
      state.history.events.filterMap Event.delivery?
  offers :
    state.history.connections.flatMap Connection.offered =
      state.history.events.filterMap Event.offer?

/-- A transition keeps a history divided. -/
theorem Scenario.Transition.divided
    {scenario : Scenario}
    {state next : State}
    {events : List Event}
    (transition : scenario.Transition state events next)
    (before : Divided state) :
    Divided next := by
  have opened :
      state.history.events.foldl Connection.afterEvent [] ≠ [] ∨
        ∀ event ∈ events, event.usesStream = false := by
    cases isOpen : state.phase.isOpen with
    | true =>
        obtain ⟨latest, earlier, shape, -⟩ :=
          before.accounted.relaying_of_open isOpen
        exact .inl (by simp [shape])
    | false =>
        exact .inr (transition.usesStream_eq_false isOpen)
  obtain ⟨accepted, offered⟩ := Connection.flatMap_foldl_afterEvent opened
  have grown := transition.history_events
  constructor
  · rw [grown, List.foldl_append]
    exact transition.accounted before.accounted
  · rw [History.connections, grown, List.foldl_append, accepted,
      List.filterMap_append, ← before.deliveries]
    rfl
  · rw [History.connections, grown, List.foldl_append, offered,
      List.filterMap_append, ← before.offers]
    rfl

/-- The history of a reachable state is divided. -/
theorem Reaches.divided
    {scenario : Scenario}
    {state : State}
    (reaches : Reaches scenario scenario.initial state) :
    Divided state :=
  reaches.invariant Divided Scenario.Transition.divided
    { accounted := .between rfl (by rintro _ ⟨⟩)
      deliveries := rfl
      offers := rfl }

/--
In every run the consumer takes, connection by connection, the first events of
what was received there: nothing is lost in between, doubled, reordered, or
put together from two connections, and the same holds of what it is given.
Of a connection that the session left to connect again the consumer took
every event, and only the last connection was not left so.
-/
theorem deliveries_by_connection
    {scenario : Scenario}
    {state : State}
    (reaches : Reaches scenario scenario.initial state) :
    state.history.deliveries =
        state.history.connections.flatMap Connection.accepted ∧
      state.history.offers =
        state.history.connections.flatMap Connection.offered ∧
      (∀ connection ∈ state.history.connections,
        connection.offered <+: messagesOf connection.received ∧
          connection.accepted <+: messagesOf connection.received ∧
          (connection.left ≠ none →
            connection.accepted = messagesOf connection.received)) ∧
      ∀ connection ∈ state.history.connections.dropLast,
        connection.left ≠ none := by
  obtain ⟨accounted, deliveries, offers⟩ := reaches.divided
  obtain ⟨inOrder, finished⟩ := accounted.inOrder
  refine ⟨?deliveries, ?offers, ?eachConnection, ?earlier⟩
  case deliveries =>
    rw [deliveries, History.deliveries, History.events,
      List.filterMap_map]
    rfl
  case offers =>
    rw [offers, History.offers, History.events, List.filterMap_map]
    rfl
  case eachConnection =>
    intro connection member
    obtain ⟨first, whole⟩ := inOrder connection (List.mem_reverse.mp member)
    exact ⟨first.offered, first.accepted.trans first.offered,
      fun left => (whole left).accepted⟩
  case earlier =>
    intro connection member
    rw [History.connections, List.dropLast_reverse,
      List.mem_reverse] at member
    exact (finished connection member).left

/-- Two connections deliver, and the second is cut short. -/
theorem deliveries_of_reconnecting :
    let state := Scenario.reconnecting.stateAt 100
    Reaches Scenario.reconnecting Scenario.reconnecting.initial state ∧
      state.history.deliveries = [⟨"message", "a"⟩, ⟨"message", "b"⟩] ∧
      state.history.connections.map Connection.left =
        [some .endOfStream, none] ∧
      state.history.deliveries =
        state.history.connections.flatMap Connection.accepted := by
  intro state
  have reaches := Scenario.reconnecting.reaches_stateAt 100
  exact ⟨reaches, by decide +kernel, by decide +kernel,
    (deliveries_by_connection reaches).1⟩

end EventRelay.Session
