import EventRelay.Proofs.Session.Waiting
import EventRelay.Session.Run

namespace EventRelay.Session

/-!
# What one step does

Each step of a session is one of the transitions listed here.  A transition
names the phase it starts from, how the waiting ended, what is recorded, and
the state it leads to.  All that is proved of whole runs is proved of single
transitions first.
-/

open Timing (Milliseconds)

namespace State

/-- Recording adds one event, at the present moment. -/
@[simp] theorem history_record (state : State) (event : Event) :
    (state.record event).history = state.history ++ [⟨state.now, event⟩] := by
  simp [record, history]

@[simp] theorem phase_enter (state : State) (phase : Phase) :
    (state.enter phase).phase = phase :=
  rfl

@[simp] theorem history_enter (state : State) (phase : Phase) :
    (state.enter phase).history = state.history :=
  rfl

@[simp] theorem history_waitUntil (state : State) (time : Milliseconds) :
    (state.waitUntil time).history = state.history :=
  rfl

/-- An attempt is recorded with its number. -/
@[simp] theorem history_attempt (state : State) :
    state.attempt.history =
      state.history ++ [⟨state.now, .attempted (state.attempts + 1)⟩] := by
  simp [attempt, record, history]

/-- Stopping ends the session. -/
@[simp] theorem phase_stop (state : State) (termination : Termination) :
    (state.stop termination).phase = .ended termination := by
  unfold stop
  split <;> rfl

@[simp] theorem now_stop (state : State) (termination : Termination) :
    (state.stop termination).now = state.now := by
  unfold stop
  split <;> rfl

/-- A stop closes the stream that is open. -/
theorem history_stop_of_open
    (state : State)
    (isOpen : state.phase.isOpen = true)
    (termination : Termination) :
    (state.stop termination).history =
      state.history ++
        [⟨state.now, .closed⟩,
          ⟨state.now, .ended termination state.attempts state.forwarded⟩] := by
  simp [stop, isOpen, finish, close, record, enter, history]

/-- A stop closes nothing where no stream is open. -/
theorem history_stop_of_closed
    (state : State)
    (isClosed : state.phase.isOpen = false)
    (termination : Termination) :
    (state.stop termination).history =
      state.history ++
        [⟨state.now, .ended termination state.attempts state.forwarded⟩] := by
  simp [stop, isClosed, finish, record, enter, history]

end State

namespace Scenario

/-- Backing off is recorded with its reason, the streak and the pause. -/
@[simp] theorem history_backOff
    (scenario : Scenario)
    (state : State)
    (reason : BackoffReason) :
    (scenario.backOff state reason).history =
      state.history ++
        [⟨state.now, .backedOff reason (nextFailures state)
          (scenario.pause state)⟩] := by
  simp [backOff, State.record, State.enter, State.history]

/-- Leaving a stream is recorded as closing it and backing off. -/
@[simp] theorem history_leave
    (scenario : Scenario)
    (state : State)
    (reason : BackoffReason) :
    (scenario.leave state reason).history =
      state.history ++
        [⟨state.now, .closed⟩,
          ⟨state.now, .backedOff reason (nextFailures state)
            (scenario.pause state)⟩] := by
  rw [leave, history_backOff, State.close, State.history_record,
    List.append_assoc]
  rfl

/-- The event of a wait that begins now. -/
def backoffEvent
    (scenario : Scenario)
    (state : State)
    (reason : BackoffReason) : Event :=
  .backedOff reason (nextFailures state) (scenario.pause state)

/-- One step with the events that it records. -/
inductive Transition (scenario : Scenario) (state : State) :
    List Event → State → Prop where
  /-- An attempt is counted, but the session must stop. -/
  | attemptStopped {time : Milliseconds} {termination : Termination}
      (phase : state.phase = .connecting)
      (wakes :
        scenario.wake state (some state.now) = .stopped time termination) :
      Transition scenario state
        [.attempted (state.attempts + 1),
          .ended termination (state.attempts + 1) state.forwarded]
        (state.attempt.stop termination)
  /-- The source is asked for a stream. -/
  | called {time : Milliseconds} (connect : TimedConnect)
      (phase : state.phase = .connecting)
      (wakes : scenario.wake state (some state.now) = .ready time)
      (scripted : state.connects.headD scenario.afterwards = connect) :
      Transition scenario state
        [.attempted (state.attempts + 1), .called]
        ((({ state.attempt with connects := state.connects.tail }).record
          .called).enter (.dialing (connect.due state.now) connect.answer))
  | dialStopped {due : Option Milliseconds} {answer : ConnectAnswer}
      {time : Milliseconds} {termination : Termination}
      (phase : state.phase = .dialing due answer)
      (wakes : scenario.wake state due = .stopped time termination) :
      Transition scenario state
        [.ended termination state.attempts state.forwarded]
        ((state.waitUntil time).stop termination)
  | refused {due : Option Milliseconds} {error : Source.ConnectError}
      {time : Milliseconds}
      (phase : state.phase = .dialing due (.refused error))
      (wakes : scenario.wake state due = .ready time) :
      Transition scenario state
        [.refused error, scenario.backoffEvent state (.connect error)]
        (scenario.backOff ((state.waitUntil time).record (.refused error))
          (.connect error))
  | opened {due : Option Milliseconds} {reads : List TimedRead}
      {time : Milliseconds}
      (phase : state.phase = .dialing due (.opened reads))
      (wakes : scenario.wake state due = .ready time) :
      Transition scenario state
        [.opened state.attempts]
        (({ state.waitUntil time with
            decoder := state.decoder.reset }.record
          (.opened state.attempts)).enter (.streaming reads))
  | dialSilent {due : Option Milliseconds} {time : Milliseconds}
      (phase : state.phase = .dialing due .silent)
      (wakes : scenario.wake state due = .ready time) :
      Transition scenario state [] (state.waitUntil time)
  | streamStopped {reads : List TimedRead}
      {time : Milliseconds} {termination : Termination}
      (phase : state.phase = .streaming reads)
      (wakes :
        scenario.wake state (some state.now) = .stopped time termination) :
      Transition scenario state
        [.closed, .ended termination state.attempts state.forwarded]
        (state.stop termination)
  /-- A read of the open stream begins. -/
  | reading {reads : List TimedRead} {time : Milliseconds} (read : TimedRead)
      (phase : state.phase = .streaming reads)
      (wakes : scenario.wake state (some state.now) = .ready time)
      (scripted : reads.headD .ended = read) :
      Transition scenario state
        [.reading]
        ((state.record .reading).enter
          (.reading (read.due state.now)
            (scenario.settings.idleLimit.map (state.now + ·))
            read.answer reads.tail))
  | readStopped {due limit : Option Milliseconds} {answer : ReadAnswer}
      {reads : List TimedRead}
      {time : Milliseconds} {termination : Termination}
      (phase : state.phase = .reading due limit answer reads)
      (wakes :
        scenario.wake state (if comesInTime due limit then due else limit) =
          .stopped time termination) :
      Transition scenario state
        [.closed, .ended termination state.attempts state.forwarded]
        ((state.waitUntil time).stop termination)
  | received {due limit : Option Milliseconds} {bytes : List UInt8}
      {reads : List TimedRead} {time : Milliseconds}
      (phase : state.phase = .reading due limit (.chunk bytes) reads)
      (inTime : comesInTime due limit = true)
      (wakes : scenario.wake state due = .ready time) :
      Transition scenario state
        [.received bytes]
        (({ state.waitUntil time with
            decoder := state.decoder.feed bytes }.record
          (.received bytes)).enter (.delivering reads))
  | readFailed {due limit : Option Milliseconds} {reason : String}
      {reads : List TimedRead} {time : Milliseconds}
      (phase : state.phase = .reading due limit (.failed reason) reads)
      (inTime : comesInTime due limit = true)
      (wakes : scenario.wake state due = .ready time) :
      Transition scenario state
        [.closed, scenario.backoffEvent state (.read (.transport reason))]
        (scenario.leave (state.waitUntil time) (.read (.transport reason)))
  | readEnded {due limit : Option Milliseconds} {reads : List TimedRead}
      {time : Milliseconds}
      (phase : state.phase = .reading due limit .ended reads)
      (inTime : comesInTime due limit = true)
      (wakes : scenario.wake state due = .ready time) :
      Transition scenario state
        [.closed, scenario.backoffEvent state .endOfStream]
        (scenario.leave (state.waitUntil time) .endOfStream)
  | readSilent {due limit : Option Milliseconds} {reads : List TimedRead}
      {time : Milliseconds}
      (phase : state.phase = .reading due limit .silent reads)
      (inTime : comesInTime due limit = true)
      (wakes : scenario.wake state due = .ready time) :
      Transition scenario state [] (state.waitUntil time)
  /-- The idle limit passes before the answer is there. -/
  | readIdle {due limit : Option Milliseconds} {answer : ReadAnswer}
      {reads : List TimedRead} {time : Milliseconds} (error : Source.ReadError)
      (phase : state.phase = .reading due limit answer reads)
      (late : comesInTime due limit = false)
      (wakes : scenario.wake state limit = .ready time)
      (idle : error = .idle (scenario.settings.idleLimit.getD 0)) :
      Transition scenario state
        [.closed, scenario.backoffEvent state (.read error)]
        (scenario.leave (state.waitUntil time) (.read error))
  /-- A frame is complete, but the session is cancelled. -/
  | deliveryStopped {reads : List TimedRead} {frame : Frame}
      {decoder : Decoder} {time : Milliseconds} {termination : Termination}
      (phase : state.phase = .delivering reads)
      (next : state.decoder.next = (some frame, decoder))
      (wakes :
        scenario.wakeForCancel state (some state.now) =
          .stopped time termination) :
      Transition scenario state
        [.closed, .ended termination state.attempts state.forwarded]
        ({ state with decoder }.stop termination)
  /-- The next frame is given to the consumer. -/
  | offered {reads : List TimedRead} {frame : Frame} {decoder : Decoder}
      {time : Milliseconds} (event : Downstream.Event)
      (phase : state.phase = .delivering reads)
      (next : state.decoder.next = (some frame, decoder))
      (wakes :
        scenario.wakeForCancel state (some state.now) = .ready time)
      (shape : event = ⟨Downstream.messageName, frame.data⟩) :
      Transition scenario state
        [.offered event]
        (({ state with decoder }.record (.offered event)).enter
          (.emitting
            ((scenario.consumer.delay state.forwarded).map (state.now + ·))
            event reads))
  /-- No frame is complete, and the bytes that wait are too many. -/
  | tooLarge {reads : List TimedRead} {decoder : Decoder}
      {error : FrameTooLarge}
      (phase : state.phase = .delivering reads)
      (next : state.decoder.next = (none, decoder))
      (exceeds : decoder.checkCapacity = .error error) :
      Transition scenario state
        [.closed, scenario.backoffEvent state (.read (.tooLarge error))]
        (scenario.leave { state with decoder } (.read (.tooLarge error)))
  /-- No frame is complete, and reading goes on. -/
  | drained {reads : List TimedRead} {decoder : Decoder}
      (phase : state.phase = .delivering reads)
      (next : state.decoder.next = (none, decoder))
      (within : decoder.checkCapacity = .ok ()) :
      Transition scenario state
        []
        ({ state with decoder }.enter (.streaming reads))
  | emitStopped {due : Option Milliseconds} {event : Downstream.Event}
      {reads : List TimedRead}
      {time : Milliseconds} {termination : Termination}
      (phase : state.phase = .emitting due event reads)
      (wakes :
        scenario.wakeForCancel state due = .stopped time termination) :
      Transition scenario state
        [.closed, .ended termination state.attempts state.forwarded]
        ((state.waitUntil time).stop termination)
  | accepted {due : Option Milliseconds} {event : Downstream.Event}
      {reads : List TimedRead} {time : Milliseconds}
      (phase : state.phase = .emitting due event reads)
      (wakes : scenario.wakeForCancel state due = .ready time)
      (takes : scenario.consumer.takes state.forwarded = true) :
      Transition scenario state
        [.accepted event]
        (({ state.waitUntil time with
            forwarded := state.forwarded + 1
            failures := 0 }.record (.accepted event)).enter
          (.delivering reads))
  | turnedAway {due : Option Milliseconds} {event : Downstream.Event}
      {reads : List TimedRead} {time : Milliseconds}
      (phase : state.phase = .emitting due event reads)
      (wakes : scenario.wakeForCancel state due = .ready time)
      (gone : scenario.consumer.takes state.forwarded = false) :
      Transition scenario state
        [.turnedAway event, .closed,
          .ended .consumerGone state.attempts state.forwarded]
        (((state.waitUntil time).record (.turnedAway event)).stop
          .consumerGone)
  | pauseStopped {due time : Milliseconds} {termination : Termination}
      (phase : state.phase = .pausing due)
      (wakes : scenario.wake state (some due) = .stopped time termination) :
      Transition scenario state
        [.ended termination state.attempts state.forwarded]
        ((state.waitUntil time).stop termination)
  /-- The wait is over. -/
  | resumed {due time : Milliseconds}
      (phase : state.phase = .pausing due)
      (wakes : scenario.wake state (some due) = .ready time) :
      Transition scenario state
        []
        ((state.waitUntil due).enter .connecting)

namespace Transition

/-- Every step is one of the transitions. -/
theorem of_step?
    {scenario : Scenario}
    {state next : State}
    (steps : scenario.step? state = some next) :
    ∃ events, scenario.Transition state events next := by
  unfold step? at steps
  split at steps
  · next phase =>
      cases steps
      unfold stepConnecting
      split
      · next wakes =>
          exact ⟨_, .attemptStopped phase wakes⟩
      · next notStopped =>
          obtain ⟨time, wakes⟩ := wakeAt_some_ready notStopped
          exact ⟨_, .called _ phase wakes rfl⟩
  · next due answer phase =>
      unfold stepDialing at steps
      split at steps
      · next wakes =>
          cases steps
          exact ⟨_, .dialStopped phase wakes⟩
      · next wakes =>
          cases steps
          cases answer with
          | refused error =>
              exact ⟨_, .refused phase wakes⟩
          | opened reads =>
              exact ⟨_, .opened phase wakes⟩
          | silent =>
              exact ⟨_, .dialSilent phase wakes⟩
      · cases steps
  · next reads phase =>
      cases steps
      unfold stepStreaming
      split
      · next wakes =>
          exact ⟨_, .streamStopped phase wakes⟩
      · next notStopped =>
          obtain ⟨time, wakes⟩ := wakeAt_some_ready notStopped
          exact ⟨_, .reading _ phase wakes rfl⟩
  · next due limit answer reads phase =>
      unfold stepReading at steps
      cases inTime : comesInTime due limit with
      | true =>
          simp only [inTime, if_true] at steps
          split at steps
          · next wakes =>
              cases steps
              exact ⟨_, .readStopped phase (by simpa [inTime] using wakes)⟩
          · next wakes =>
              cases steps
              cases answer with
              | chunk bytes =>
                  exact ⟨_, .received phase inTime wakes⟩
              | failed reason =>
                  exact ⟨_, .readFailed phase inTime wakes⟩
              | ended =>
                  exact ⟨_, .readEnded phase inTime wakes⟩
              | silent =>
                  exact ⟨_, .readSilent phase inTime wakes⟩
          · cases steps
      | false =>
          simp only [inTime, Bool.false_eq_true, if_false] at steps
          split at steps
          · next wakes =>
              cases steps
              exact ⟨_, .readStopped phase (by simpa [inTime] using wakes)⟩
          · next wakes =>
              cases steps
              exact ⟨_, .readIdle _ phase inTime wakes rfl⟩
          · cases steps
  · next reads phase =>
      cases steps
      unfold stepDelivering
      rcases next : state.decoder.next with ⟨found, decoder⟩
      cases found with
      | some frame =>
          simp only
          split
          · next wakes =>
              exact ⟨_, .deliveryStopped phase next wakes⟩
          · next notStopped =>
              obtain ⟨time, wakes⟩ := wakeAt_some_ready notStopped
              exact ⟨_, .offered _ phase next wakes rfl⟩
      | none =>
          simp only
          split
          · next exceeds =>
              exact ⟨_, .tooLarge phase next exceeds⟩
          · next within =>
              exact ⟨_, .drained phase next within⟩
  · next due event reads phase =>
      unfold stepEmitting at steps
      split at steps
      · next wakes =>
          cases steps
          exact ⟨_, .emitStopped phase wakes⟩
      · next wakes =>
          cases steps
          unfold Scenario.offered
          split
          · next takes =>
              exact ⟨_, .accepted phase wakes takes⟩
          · next gone =>
              exact ⟨_, .turnedAway phase wakes (eq_false_of_ne_true gone)⟩
      · cases steps
  · next due phase =>
      cases steps
      unfold stepPausing
      split
      · next wakes =>
          exact ⟨_, .pauseStopped phase wakes⟩
      · next notStopped =>
          obtain ⟨time, wakes⟩ := wakeAt_some_ready notStopped
          exact ⟨_, .resumed phase wakes⟩
  · cases steps

/-- Every transition is a step. -/
theorem step?_eq
    {scenario : Scenario}
    {state next : State}
    {events : List Event}
    (transition : scenario.Transition state events next) :
    scenario.step? state = some next := by
  unfold step?
  cases transition with
  | attemptStopped phase wakes =>
      simp [phase, stepConnecting, wakes]
  | called connect phase wakes scripted =>
      subst scripted
      simp [phase, stepConnecting, wakes]
  | dialStopped phase wakes =>
      simp [phase, stepDialing, wakes]
  | refused phase wakes =>
      simp [phase, stepDialing, wakes, connected]
  | opened phase wakes =>
      simp [phase, stepDialing, wakes, connected, State.waitUntil]
  | dialSilent phase wakes =>
      simp [phase, stepDialing, wakes, connected]
  | streamStopped phase wakes =>
      simp [phase, stepStreaming, wakes]
  | reading read phase wakes scripted =>
      subst scripted
      simp [phase, stepStreaming, wakes]
  | readStopped phase wakes =>
      simp [phase, stepReading, wakes]
  | received phase inTime wakes =>
      simp [phase, stepReading, inTime, wakes, answered, State.waitUntil]
  | readFailed phase inTime wakes =>
      simp [phase, stepReading, inTime, wakes, answered]
  | readEnded phase inTime wakes =>
      simp [phase, stepReading, inTime, wakes, answered]
  | readSilent phase inTime wakes =>
      simp [phase, stepReading, inTime, wakes, answered]
  | readIdle error phase late wakes idle =>
      subst idle
      simp [phase, stepReading, late, wakes]
  | deliveryStopped phase next wakes =>
      simp [phase, stepDelivering, next, wakes]
  | offered event phase next wakes shape =>
      subst shape
      simp [phase, stepDelivering, next, wakes]
  | tooLarge phase next exceeds =>
      simp [phase, stepDelivering, next, exceeds]
  | drained phase next within =>
      simp [phase, stepDelivering, next, within]
  | emitStopped phase wakes =>
      simp [phase, stepEmitting, wakes]
  | accepted phase wakes takes =>
      simp [phase, stepEmitting, wakes, Scenario.offered, takes,
        State.waitUntil]
  | turnedAway phase wakes gone =>
      simp [phase, stepEmitting, wakes, Scenario.offered, gone,
        State.waitUntil]
  | pauseStopped phase wakes =>
      simp [phase, stepPausing, wakes]
  | resumed phase wakes =>
      simp [phase, stepPausing, wakes]

/-- The recorded events follow the history, all at the time of the step. -/
theorem history
    {scenario : Scenario}
    {state next : State}
    {events : List Event}
    (transition : scenario.Transition state events next) :
    next.history = state.history ++ events.map (Timed.mk next.now) := by
  cases transition with
  | attemptStopped phase wakes =>
      rw [State.now_stop, State.history_stop_of_closed state.attempt
        (congrArg Phase.isOpen phase), State.history_attempt,
        List.append_assoc]
      rfl
  | called connect phase wakes scripted =>
      rw [State.history_enter, State.history_record]
      change state.attempt.history ++ _ = _
      rw [State.history_attempt, List.append_assoc]
      rfl
  | dialStopped phase wakes =>
      rw [State.now_stop, State.history_stop_of_closed (state.waitUntil _)
        (congrArg Phase.isOpen phase)]
      rfl
  | refused phase wakes =>
      rw [history_backOff, State.history_record, List.append_assoc]
      rfl
  | opened phase wakes =>
      rw [State.history_enter, State.history_record]
      rfl
  | dialSilent phase wakes =>
      simp
  | streamStopped phase wakes =>
      rw [State.now_stop, State.history_stop_of_open state
        (congrArg Phase.isOpen phase)]
      rfl
  | reading read phase wakes scripted =>
      rw [State.history_enter, State.history_record]
      rfl
  | readStopped phase wakes =>
      rw [State.now_stop, State.history_stop_of_open (state.waitUntil _)
        (congrArg Phase.isOpen phase)]
      rfl
  | received phase inTime wakes =>
      rw [State.history_enter, State.history_record]
      rfl
  | readFailed phase inTime wakes =>
      rw [history_leave]
      rfl
  | readEnded phase inTime wakes =>
      rw [history_leave]
      rfl
  | readSilent phase inTime wakes =>
      simp
  | readIdle error phase late wakes idle =>
      rw [history_leave]
      rfl
  | @deliveryStopped _ _ decoder _ _ phase next wakes =>
      rw [State.now_stop, State.history_stop_of_open { state with decoder }
        (congrArg Phase.isOpen phase)]
      rfl
  | offered event phase next wakes shape =>
      rw [State.history_enter, State.history_record]
      rfl
  | tooLarge phase next exceeds =>
      rw [history_leave]
      rfl
  | drained phase next within =>
      exact (List.append_nil _).symm
  | emitStopped phase wakes =>
      rw [State.now_stop, State.history_stop_of_open (state.waitUntil _)
        (congrArg Phase.isOpen phase)]
      rfl
  | accepted phase wakes takes =>
      rw [State.history_enter, State.history_record]
      rfl
  | @turnedAway _ event _ time phase wakes gone =>
      rw [State.now_stop, State.history_stop_of_open
        ((state.waitUntil time).record (.turnedAway event))
        (congrArg Phase.isOpen phase), State.history_record,
        List.append_assoc]
      rfl
  | pauseStopped phase wakes =>
      rw [State.now_stop, State.history_stop_of_closed (state.waitUntil _)
        (congrArg Phase.isOpen phase)]
      rfl
  | resumed phase wakes =>
      simp

/-- The recorded events are the new ones. -/
theorem history_events
    {scenario : Scenario}
    {state next : State}
    {events : List Event}
    (transition : scenario.Transition state events next) :
    next.history.events = state.history.events ++ events := by
  rw [transition.history]
  simp [History.events, Function.comp_def]

/-- Time does not go back. -/
theorem now_le
    {scenario : Scenario}
    {state next : State}
    {events : List Event}
    (transition : scenario.Transition state events next) :
    state.now ≤ next.now := by
  cases transition with
  | attemptStopped | streamStopped | deliveryStopped =>
      simp [State.attempt, State.record]
  | dialStopped | readStopped | emitStopped | turnedAway | pauseStopped =>
      rw [State.now_stop]
      exact Nat.le_max_left _ _
  | called | reading | offered | tooLarge | drained =>
      exact Nat.le_refl _
  | refused | opened | dialSilent | received | readFailed | readEnded
  | readSilent | readIdle | accepted | resumed =>
      exact Nat.le_max_left _ _

end Transition

end Scenario

end EventRelay.Session
