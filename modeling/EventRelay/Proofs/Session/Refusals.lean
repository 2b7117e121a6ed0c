import EventRelay.Proofs.Session.Counting
import EventRelay.Proofs.Session.OneStream

namespace EventRelay.Session

/-!
# Refusals before the first stream

Attempts are answered in the order of the scenario.  When some attempts are
refused and the next one opens a stream, there is one wait for each refusal
and one call more than waits until that stream is closed.  Unless the session
must stop, it gets as far as the first event of a stream that serves one.
-/

open Timing (Milliseconds)

/-- An attempt that is refused. -/
def TimedConnect.Refused (connect : TimedConnect) : Prop :=
  ∃ error, connect.answer = .refused error

/-- Attempts that open a stream after a number of refusals. -/
inductive OpensAfter (reads : List TimedRead) :
    Nat → List TimedConnect → Prop where
  | now {connect : TimedConnect} {others : List TimedConnect}
      (opens : connect.answer = .opened reads) :
      OpensAfter reads 0 (connect :: others)
  | refused {connect : TimedConnect} {others : List TimedConnect}
      {refusals : Nat}
      (refuses : connect.Refused)
      (later : OpensAfter reads refusals others) :
      OpensAfter reads (refusals + 1) (connect :: others)

/-- Refused attempts and then one that opens a stream. -/
theorem OpensAfter.of_append
    {refusals others : List TimedConnect}
    {serving : TimedConnect}
    {reads : List TimedRead}
    (refused : ∀ connect ∈ refusals, connect.Refused)
    (opens : serving.answer = .opened reads) :
    OpensAfter reads refusals.length (refusals ++ serving :: others) := by
  induction refusals with
  | nil =>
      exact .now opens
  | cons connect later inductionHypothesis =>
      obtain ⟨refuses, refusedLater⟩ := List.forall_mem_cons.mp refused
      exact .refused refuses (inductionHypothesis refusedLater)

/-- A read that gets a chunk before the idle limit has passed. -/
structure TimedRead.Brings
    (read : TimedRead)
    (idleLimit : Option Milliseconds)
    (bytes : List UInt8) : Prop where
  answer : read.answer = .chunk bytes
  inTime : ∀ limit ∈ idleLimit, read.wait ≤ limit

/-- Reads that complete a frame, within the limits, and its event. -/
inductive Serves (settings : Settings) (event : Downstream.Event) :
    Decoder → List TimedRead → Prop where
  | now {decoder rest : Decoder} {read : TimedRead} {bytes : List UInt8}
      {reads : List TimedRead} {frame : Frame}
      (brings : read.Brings settings.idleLimit bytes)
      (next : (decoder.feed bytes).next = (some frame, rest))
      (shape : event = ⟨Downstream.messageName, frame.data⟩) :
      Serves settings event decoder (read :: reads)
  | later {decoder rest : Decoder} {read : TimedRead} {bytes : List UInt8}
      {reads : List TimedRead}
      (brings : read.Brings settings.idleLimit bytes)
      (next : (decoder.feed bytes).next = (none, rest))
      (within : rest.checkCapacity = .ok ())
      (serves : Serves settings event rest reads) :
      Serves settings event decoder (read :: reads)

/--
Where a session stands with its refusals: ahead of an attempt, waiting for its
answer, or with the stream that was opened after all refusals.
-/
inductive Stage
    (reads : List TimedRead)
    (refusals : Nat)
    (state : State) : Prop where
  | ahead {left : Nat}
      (phase :
        state.phase = .connecting ∨ ∃ due, state.phase = .pausing due)
      (connects : OpensAfter reads left state.connects)
      (backoffs : state.history.backoffs + left = refusals)
      (calls : state.history.calls = state.history.backoffs)
  | refusing {left : Nat} {due : Option Milliseconds}
      {error : Source.ConnectError}
      (phase : state.phase = .dialing due (.refused error))
      (connects : OpensAfter reads left state.connects)
      (backoffs : state.history.backoffs + left + 1 = refusals)
      (calls : state.history.calls = state.history.backoffs + 1)
  | opening {due : Option Milliseconds}
      (phase : state.phase = .dialing due (.opened reads))
      (backoffs : state.history.backoffs = refusals)
      (calls : state.history.calls = refusals + 1)
  | serving
      (isOpen : state.phase.isOpen = true)
      (backoffs : state.history.backoffs = refusals)
      (calls : state.history.calls = refusals + 1)
  | closed (closings : 0 < state.history.closings)
  | ended {termination : Termination}
      (phase : state.phase = .ended termination)

namespace Scenario.Transition

variable {scenario : Scenario}
variable {state next : State}
variable {events : List Event}

/-- Each transition adds to the numbers of waits, calls and closings. -/
theorem counts_eq (transition : scenario.Transition state events next) :
    next.history.backoffs =
        state.history.backoffs + events.countP Event.isBackoff ∧
      next.history.calls =
        state.history.calls + events.countP Event.isCall ∧
      next.history.closings =
        state.history.closings +
          (events.filterMap Event.switch?).count false := by
  rw [transition.history, History.backoffs_append, History.calls_append,
    History.closings_append]
  exact ⟨rfl, rfl, rfl⟩

/-- An attempt waits for the next answer of the scenario. -/
private theorem next_of_connecting
    (transition : scenario.Transition state events next)
    (phase : state.phase = .connecting) :
    (∃ termination, next.phase = .ended termination) ∨
      ∃ connect,
        state.connects.headD scenario.afterwards = connect ∧
          next.phase = .dialing (connect.due state.now) connect.answer ∧
          next.connects = state.connects.tail ∧
          events.countP Event.isBackoff = 0 ∧
          events.countP Event.isCall = 1 := by
  cases transition with
  | attemptStopped =>
      exact .inl ⟨_, State.phase_stop _ _⟩
  | called connect _ _ scripted =>
      exact .inr ⟨connect, scripted, rfl, rfl, rfl, rfl⟩
  | _ =>
      simp_all

/-- A refusal is followed by a wait. -/
theorem next_of_refusal
    {due : Option Milliseconds}
    {error : Source.ConnectError}
    (transition : scenario.Transition state events next)
    (phase : state.phase = .dialing due (.refused error)) :
    (∃ termination, next.phase = .ended termination) ∨
      (∃ due, next.phase = .pausing due) ∧
        next.connects = state.connects ∧
        events.countP Event.isBackoff = 1 ∧
        events.countP Event.isCall = 0 := by
  cases transition with
  | dialStopped =>
      exact .inl ⟨_, State.phase_stop _ _⟩
  | refused =>
      exact .inr ⟨⟨_, rfl⟩, rfl, rfl, rfl⟩
  | _ =>
      simp_all

/-- An attempt is made while refusals may still come. -/
private theorem stage_of_connecting
    {reads : List TimedRead}
    {refusals left : Nat}
    (transition : scenario.Transition state events next)
    (phase : state.phase = .connecting)
    (connects : OpensAfter reads left state.connects)
    (waits : state.history.backoffs + left = refusals)
    (counted : state.history.calls = state.history.backoffs) :
    Stage reads refusals next := by
  obtain ⟨backoffs, calls, -⟩ := transition.counts_eq
  rcases transition.next_of_connecting phase with
      ⟨termination, ended⟩ |
      ⟨connect, scripted, dialing, others, noWait, oneCall⟩
  · exact .ended ended
  · generalize state.connects = attempts at connects scripted others
    cases connects with
    | now opens =>
        rw [List.headD_cons] at scripted
        subst scripted
        rw [opens] at dialing
        exact .opening dialing (by omega) (by omega)
    | refused refuses later =>
        rw [List.headD_cons] at scripted
        subst scripted
        obtain ⟨error, answer⟩ := refuses
        rw [answer] at dialing
        rw [List.tail_cons] at others
        rw [← others] at later
        exact .refusing dialing later (by omega) (by omega)

/-- An open stream stays open until it is closed. -/
private theorem stage_of_open
    {reads : List TimedRead}
    {refusals : Nat}
    (transition : scenario.Transition state events next)
    (isOpen : state.phase.isOpen = true)
    (waits : state.history.backoffs = refusals)
    (counted : state.history.calls = refusals + 1) :
    Stage reads refusals next := by
  obtain ⟨backoffs, calls, closings⟩ := transition.counts_eq
  cases transition with
  | streamStopped | readStopped | deliveryStopped | emitStopped
  | turnedAway =>
      exact .ended (State.phase_stop _ _)
  | readFailed | readEnded | readIdle | tooLarge =>
      exact .closed (by rw [closings]; exact Nat.succ_pos _)
  | reading | received | offered | drained | accepted =>
      exact .serving rfl (backoffs.trans waits) (calls.trans counted)
  | readSilent phase =>
      exact .serving isOpen (backoffs.trans waits) (calls.trans counted)
  | attemptStopped phase | called _ phase | dialStopped phase
  | refused phase | opened phase | dialSilent phase | pauseStopped phase
  | resumed phase =>
      rw [phase] at isOpen
      cases isOpen

/-- One step of a session on its way to the first closing. -/
private theorem stage
    {reads : List TimedRead}
    {refusals : Nat}
    (transition : scenario.Transition state events next)
    (before : Stage reads refusals state) :
    Stage reads refusals next := by
  obtain ⟨backoffs, calls, closings⟩ := transition.counts_eq
  cases before with
  | ahead phase connects waits counted =>
      rcases phase with connecting | ⟨due, pausing⟩
      · exact transition.stage_of_connecting connecting connects waits counted
      · cases transition with
        | pauseStopped =>
            exact .ended (State.phase_stop _ _)
        | resumed =>
            exact .ahead (.inl rfl) connects waits counted
        | _ =>
            simp_all
  | refusing phase connects waits counted =>
      rcases transition.next_of_refusal phase with
          ⟨termination, ended⟩ | ⟨pausing, same, oneWait, noCall⟩
      · exact .ended ended
      · rw [← same] at connects
        exact .ahead (.inr pausing) connects (by omega) (by omega)
  | opening phase waits counted =>
      cases transition with
      | dialStopped =>
          exact .ended (State.phase_stop _ _)
      | opened =>
          exact .serving rfl (backoffs.trans waits) (calls.trans counted)
      | _ =>
          simp_all
  | serving isOpen waits counted =>
      exact transition.stage_of_open isOpen waits counted
  | closed earlierClosings =>
      exact .closed (by omega)
  | ended phase =>
      exact (transition.running _ phase).elim

/-- An event is taken while a stream is open, and nothing else happens then. -/
private theorem of_accepted
    {event : Downstream.Event}
    (transition : scenario.Transition state events next)
    (member : .accepted event ∈ events) :
    state.phase.isOpen = true ∧ events = [.accepted event] := by
  cases transition with
  | accepted phase =>
      rw [List.mem_singleton.mp member, phase]
      exact ⟨rfl, rfl⟩
  | _ =>
      simp [backoffEvent] at member

end Scenario.Transition

/--
Until the stream that follows the refusals is closed, each of its events comes
after one wait for each refusal, and one call more.
-/
theorem Reaches.counts_before_event
    {scenario : Scenario}
    {state : State}
    (reaches : Reaches scenario scenario.initial state)
    {reads : List TimedRead}
    {refusals : Nat}
    (connects : OpensAfter reads refusals scenario.connects)
    {before after : History}
    {time : Milliseconds}
    {event : Downstream.Event}
    (split : state.history = before ++ ⟨time, .accepted event⟩ :: after)
    (unclosed : before.closings = 0) :
    before.backoffs = refusals ∧ before.calls = refusals + 1 := by
  have start : Stage reads refusals scenario.initial :=
    .ahead (.inl rfl) connects (Nat.zero_add _) rfl
  obtain ⟨origin, next, lead, later, -, toOrigin, transition, -, -,
      beforeShape, -⟩ :=
    reaches.recorded_after_start split (by simp)
  obtain ⟨isOpen, shape⟩ :=
    transition.of_accepted (List.mem_append_right lead List.mem_cons_self)
  have nothingBefore : lead = [] := by
    cases lead with
    | nil =>
        rfl
    | cons =>
        simp at shape
  rw [nothingBefore, List.map_nil, List.append_nil] at beforeShape
  subst beforeShape
  have stage :=
    toOrigin.invariant (Stage reads refusals) Scenario.Transition.stage start
  -- An event is taken from an open stream, which leaves one stage only.
  cases stage with
  | serving _ waits counted =>
      exact ⟨waits, counted⟩
  | closed closings =>
      omega
  | ahead phase =>
      rcases phase with phase | ⟨due, phase⟩ <;>
        simp [phase, Phase.isOpen] at isOpen
  | refusing phase | opening phase | ended phase =>
      simp [phase, Phase.isOpen] at isOpen

/-- Where a session stands before its first event. -/
structure Standing
    (backoffs calls : Nat)
    (phase : Phase)
    (decoder : Decoder)
    (others : List TimedConnect)
    (state : State) : Prop where
  phase : state.phase = phase
  decoder : state.decoder = decoder
  connects : state.connects = others
  forwarded : state.forwarded = 0
  backoffs : state.history.backoffs = backoffs
  calls : state.history.calls = calls

namespace Standing

variable {scenario : Scenario}
variable {backoffs calls : Nat}
variable {phase : Phase}
variable {decoder : Decoder}
variable {others : List TimedConnect}
variable {state : State}

/-- A transition leads to where its events and its state say. -/
theorem of_transition
    {next : State}
    {events : List Event}
    (standing : Standing backoffs calls phase decoder others state)
    (transition : scenario.Transition state events next)
    (forwarded : next.forwarded = state.forwarded) :
    Standing
      (backoffs + events.countP Event.isBackoff)
      (calls + events.countP Event.isCall)
      next.phase next.decoder next.connects next where
  phase := rfl
  decoder := rfl
  connects := rfl
  forwarded := forwarded.trans standing.forwarded
  backoffs := by
    rw [transition.history, History.backoffs_append, standing.backoffs]
  calls := by
    rw [transition.history, History.calls_append, standing.calls]

variable (quiet : ∀ moment, scenario.stopReason? moment 0 = none)

include quiet

/-- Before its first event a session that need not stop gets what it waits for. -/
theorem wake
    (standing : Standing backoffs calls phase decoder others state)
    (due : Milliseconds) :
    scenario.wake state (some due) = .ready due := by
  refine Scenario.wake_of_quiet ?_ due
  rw [standing.forwarded]
  exact quiet

/-- Before its first event a session that need not stop is not cancelled. -/
theorem wakeForCancel
    (standing : Standing backoffs calls phase decoder others state)
    (due : Milliseconds) :
    scenario.wakeForCancel state (some due) = .ready due := by
  refine Scenario.wakeForCancel_of_quiet ?_ due
  rw [standing.forwarded]
  exact quiet

/-- An attempt is made. -/
theorem call
    {connect : TimedConnect}
    (standing :
      Standing backoffs calls .connecting decoder (connect :: others) state) :
    ∃ next,
      Reaches scenario state next ∧
        Standing backoffs (calls + 1)
          (.dialing (connect.due state.now) connect.answer)
          decoder others next := by
  have transition :=
    Scenario.Transition.called connect standing.phase
      (standing.wake quiet state.now)
      (by rw [standing.connects]; rfl)
  have stands := standing.of_transition transition rfl
  have connects : state.connects.tail = others := by
    rw [standing.connects]
    rfl
  exact ⟨_, .of_transition transition, rfl, standing.decoder, connects,
    stands.forwarded, stands.backoffs, stands.calls⟩

/-- A refusal is followed by a wait and the next attempt. -/
private theorem refuse
    {due : Milliseconds}
    {error : Source.ConnectError}
    (standing :
      Standing backoffs calls (.dialing (some due) (.refused error)) decoder
        others state) :
    ∃ next,
      Reaches scenario state next ∧
        Standing (backoffs + 1) calls .connecting decoder others next := by
  have refusal :=
    Scenario.Transition.refused standing.phase (standing.wake quiet due)
  have waits := standing.of_transition refusal rfl
  have resumption := Scenario.Transition.resumed rfl (waits.wake quiet _)
  have resumes := waits.of_transition resumption rfl
  exact ⟨_, .step refusal.step?_eq (.of_transition resumption), rfl,
    standing.decoder, standing.connects, resumes.forwarded,
    resumes.backoffs, resumes.calls⟩

/-- A stream is opened. -/
theorem opens
    {due : Milliseconds}
    {reads : List TimedRead}
    (standing :
      Standing backoffs calls (.dialing (some due) (.opened reads)) decoder
        others state) :
    ∃ next,
      Reaches scenario state next ∧
        Standing backoffs calls (.streaming reads) decoder.reset others
          next := by
  have opening :=
    Scenario.Transition.opened standing.phase (standing.wake quiet due)
  have stands := standing.of_transition opening rfl
  exact ⟨_, .of_transition opening, rfl,
    congrArg Decoder.reset standing.decoder, standing.connects,
    stands.forwarded, stands.backoffs, stands.calls⟩

/-- One refusal after another leads to the stream that is opened then. -/
theorem opensAfter
    {attempts : List TimedConnect}
    {reads : List TimedRead}
    {refusals : Nat}
    (connects : OpensAfter reads refusals attempts)
    (standing :
      Standing backoffs calls .connecting decoder attempts state) :
    ∃ next others,
      Reaches scenario state next ∧
        Standing (backoffs + refusals) (calls + refusals + 1)
          (.streaming reads) decoder.reset others next := by
  induction connects generalizing backoffs calls state with
  | now answer =>
      obtain ⟨dialing, toDialing, dials⟩ := standing.call quiet
      rw [TimedConnect.due, answer] at dials
      obtain ⟨streaming, toStreaming, streams⟩ := dials.opens quiet
      exact ⟨streaming, _, toDialing.trans toStreaming, streams⟩
  | @refused connect others refusals refuses later inductionHypothesis =>
      obtain ⟨error, answer⟩ := refuses
      obtain ⟨dialing, toDialing, dials⟩ := standing.call quiet
      rw [TimedConnect.due, answer] at dials
      obtain ⟨again, toAgain, stands⟩ := dials.refuse quiet
      obtain ⟨last, rest, toLast, streams⟩ := inductionHypothesis stands
      refine ⟨last, rest, (toDialing.trans toAgain).trans toLast, ?_⟩
      rw [Nat.add_comm refusals 1, ← Nat.add_assoc, ← Nat.add_assoc]
      exact streams

/-- A chunk is read in time. -/
private theorem receive
    {read : TimedRead}
    {bytes : List UInt8}
    {reads : List TimedRead}
    (brings : read.Brings scenario.settings.idleLimit bytes)
    (standing :
      Standing backoffs calls (.streaming (read :: reads)) decoder others
        state) :
    ∃ next,
      Reaches scenario state next ∧
        Standing backoffs calls (.delivering reads) (decoder.feed bytes)
          others next := by
  have due : read.due state.now = some (state.now + read.wait) := by
    rw [TimedRead.due, brings.answer]
  have inTime :
      Scenario.comesInTime (some (state.now + read.wait))
        (scenario.settings.idleLimit.map (state.now + ·)) = true := by
    cases limited : scenario.settings.idleLimit with
    | none =>
        rfl
    | some limit =>
        exact decide_eq_true
          (Nat.add_le_add_left (brings.inTime limit limited) _)
  have begins :=
    Scenario.Transition.reading read standing.phase
      (standing.wake quiet state.now) rfl
  rw [due, brings.answer] at begins
  have waits := standing.of_transition begins rfl
  have receipt :=
    Scenario.Transition.received rfl inTime (waits.wake quiet _)
  have stands := waits.of_transition receipt rfl
  exact ⟨_, .step begins.step?_eq (.of_transition receipt), rfl,
    congrArg (Decoder.feed · bytes) standing.decoder, standing.connects,
    stands.forwarded, stands.backoffs, stands.calls⟩

/-- A stream that serves an event gets as far as the consumer's taking it. -/
private theorem serve
    {event : Downstream.Event}
    {reads : List TimedRead}
    {delay : Milliseconds}
    (patient : scenario.consumer.delay 0 = some delay)
    (takes : scenario.consumer.takes 0 = true)
    (serves : Serves scenario.settings event decoder reads)
    (standing :
      Standing backoffs calls (.streaming reads) decoder others state) :
    ∃ emitting last,
      Reaches scenario state emitting ∧
        emitting.forwarded = 0 ∧
        emitting.history.backoffs = backoffs ∧
        emitting.history.calls = calls ∧
        scenario.Transition emitting [.accepted event] last := by
  induction serves generalizing state with
  | later brings next within serves inductionHypothesis =>
      obtain ⟨delivering, toDelivering, delivers⟩ :=
        standing.receive quiet brings
      have goesOn : scenario.Transition delivering [] _ :=
        .drained delivers.phase (by rw [delivers.decoder]; exact next) within
      have stands := delivers.of_transition goesOn rfl
      have connects := stands.connects.trans delivers.connects
      obtain ⟨emitting, last, toEmitting, accepts⟩ :=
        inductionHypothesis
          ⟨stands.phase, stands.decoder, connects, stands.forwarded,
            stands.backoffs, stands.calls⟩
      exact ⟨emitting, last,
        (toDelivering.trans (.of_transition goesOn)).trans toEmitting,
        accepts⟩
  | @now decoder rest read bytes reads frame brings next shape =>
      obtain ⟨delivering, toDelivering, delivers⟩ :=
        standing.receive quiet brings
      have due :
          (scenario.consumer.delay delivering.forwarded).map
              (delivering.now + ·) =
            some (delivering.now + delay) := by
        rw [delivers.forwarded, patient]
        rfl
      have offer :=
        Scenario.Transition.offered event delivers.phase
          (by rw [delivers.decoder]; exact next)
          (delivers.wakeForCancel quiet delivering.now) shape
      rw [due] at offer
      have emits := delivers.of_transition offer rfl
      have acceptance :=
        Scenario.Transition.accepted rfl (emits.wakeForCancel quiet _)
          (by rw [emits.forwarded]; exact takes)
      exact ⟨_, _, toDelivering.trans (.of_transition offer),
        emits.forwarded, emits.backoffs, emits.calls, acceptance⟩

end Standing

/--
Without a stop, refused attempts and then a stream that serves an event lead to
that event: after one wait for each refusal, and one call more.
-/
theorem Scenario.exists_first_event
    {scenario : Scenario}
    {reads : List TimedRead}
    {refusals : Nat}
    {event : Downstream.Event}
    {delay : Milliseconds}
    (connects : OpensAfter reads refusals scenario.connects)
    (serves :
      Serves scenario.settings event (.new scenario.settings.maxFrameBytes)
        reads)
    (quiet : ∀ moment, scenario.stopReason? moment 0 = none)
    (patient : scenario.consumer.delay 0 = some delay)
    (takes : scenario.consumer.takes 0 = true) :
    ∃ emitting last,
      Reaches scenario scenario.initial emitting ∧
        emitting.forwarded = 0 ∧
        emitting.history.backoffs = refusals ∧
        emitting.history.calls = refusals + 1 ∧
        scenario.Transition emitting [.accepted event] last := by
  have start :
      Standing 0 0 .connecting (.new scenario.settings.maxFrameBytes)
        scenario.connects scenario.initial :=
    ⟨rfl, rfl, rfl, rfl, rfl, rfl⟩
  obtain ⟨streaming, others, toStreaming, streams⟩ :=
    start.opensAfter quiet connects
  rw [Nat.zero_add] at streams
  obtain ⟨emitting, last, toEmitting, accepts⟩ :=
    streams.serve quiet patient takes serves
  exact ⟨emitting, last, toStreaming.trans toEmitting, accepts⟩

end EventRelay.Session
