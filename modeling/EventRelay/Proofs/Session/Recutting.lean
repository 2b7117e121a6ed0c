import EventRelay.Proofs.Session.Causes
import EventRelay.Proofs.Session.Horizon
import EventRelay.Proofs.Session.Settling

namespace EventRelay.Session

/-!
# Runs on streams that are cut in another way

Two scenarios that differ at most in how their streams are cut have runs that
cannot be told apart from outside.  Whatever one session does next that is
seen, the other does after some more reading, and a read of a chunk is not
answered by the other at all.
-/

open Timing (Milliseconds)

/-- Two states whose runs go on alike. -/
structure Together (first : Scenario) (state other : State) : Prop where
  alike : state.Alike other
  connects :
    List.Forall₂ (TimedConnect.Recut first.settings.maxFrameBytes)
      state.connects other.connects
  phases :
    PhasesAlike first.settings.maxFrameBytes state.now
      state.phase state.decoder other.phase other.decoder

namespace Together

variable {first second : Scenario}
variable {state other : State}

section

variable (alike : state.Alike other)
variable (connects :
  List.Forall₂ (TimedConnect.Recut first.settings.maxFrameBytes)
    state.connects other.connects)

include alike connects

/-- Nothing tells two states apart in which a session has ended. -/
theorem of_ended
    {termination : Termination}
    (phase : state.phase = .ended termination)
    (otherPhase : other.phase = .ended termination) :
    Together first state other where
  alike := alike
  connects := connects
  phases := by
    rw [phase, otherPhase]
    exact .ended

private theorem stop
    (bothOpen : state.phase.isOpen = other.phase.isOpen)
    (termination : Termination) :
    Together first (state.stop termination) (other.stop termination) := by
  refine of_ended (alike.stop bothOpen termination) ?_
    (State.phase_stop _ _) (State.phase_stop _ _)
  rw [State.connects_stop, State.connects_stop]
  exact connects

/-- Both begin to wait before they connect again. -/
theorem backOff (recut : first.Recut second) (reason : BackoffReason) :
    Together first
      (first.backOff state reason) (second.backOff other reason) where
  alike := recut.backOff_alike alike reason
  connects := connects
  phases := by
    rw [Scenario.backOff, Scenario.backOff, State.phase_enter,
      State.phase_enter, recut.pause_eq alike, alike.now]
    exact .pausing

/-- Leaving the stream for the same reason keeps both sessions together. -/
private theorem leave (recut : first.Recut second) (reason : BackoffReason) :
    Together first
      (first.leave state reason) (second.leave other reason) :=
  .backOff (alike.record .closed) connects recut reason

end

/-- What waits when no frame is complete is not too much. -/
theorem checkCapacity_ok
    (together : Together first state other)
    {reads : List TimedRead}
    {decoder : Decoder}
    (phase : state.phase = .delivering reads)
    (next : state.decoder.next = (none, decoder)) :
    decoder.checkCapacity = .ok () := by
  have phases := together.phases
  rw [phase] at phases
  obtain ⟨_, _, _, -, -, yields, -⟩ := phases.of_delivering
  obtain ⟨later, -, -, idle⟩ := yields.next
  rw [next] at idle
  exact (idle rfl).2

section

variable (recut : first.Recut second)
variable (together : Together first state other)

include recut together

/-- What one session waits for, the other gets at the same time. -/
theorem wake
    {due : Option Milliseconds}
    {found : Wake}
    (wakes : first.wake state due = found) :
    second.wake other due = found :=
  (recut.wake_eq together.alike due).symm.trans wakes

/-- What one session finds when it looks whether to stop, the other finds. -/
theorem wake_now
    {found : Wake}
    (wakes : first.wake state (some state.now) = found) :
    second.wake other (some other.now) = found := by
  rw [← together.alike.now]
  exact wake recut together wakes

/-- While an event is offered, both sessions wake at the same moment. -/
private theorem wakeForCancel
    {due : Option Milliseconds}
    {found : Wake}
    (wakes : first.wakeForCancel state due = found) :
    second.wakeForCancel other due = found :=
  (recut.wakeForCancel_eq together.alike due).symm.trans wakes

/-- The next attempts lead to streams that differ at most in their cuts. -/
private theorem planned :
    TimedConnect.Recut first.settings.maxFrameBytes
        (state.connects.headD first.afterwards)
        (other.connects.headD second.afterwards) ∧
      List.Forall₂ (TimedConnect.Recut first.settings.maxFrameBytes)
        state.connects.tail other.connects.tail := by
  have connects := together.connects
  generalize state.connects = plans at connects ⊢
  generalize other.connects = otherPlans at connects ⊢
  cases connects with
  | nil =>
      exact ⟨recut.afterwards, .nil⟩
  | cons connect later =>
      exact ⟨connect, later⟩

/-- A stream that is left at once is left by both. -/
theorem leaves_of_brings
    (stays : ∀ time taken, first.isDetached time taken = false)
    {frames : List Frame}
    {ending : List TimedRead}
    (brings : Brings state.now frames ending other.phase other.decoder)
    {time : Milliseconds}
    {termination : Termination}
    (wakes :
      first.wake state (some state.now) = .stopped time termination)
    {next : State}
    (seen : (state.stop termination).Alike next)
    (connects : next.connects = state.connects)
    (phase : next.phase = .ended termination) :
    ∃ otherNext,
      Reaches second other otherNext ∧ Together first next otherNext := by
  have otherStays :
      ∀ time taken, second.isDetached time taken = false := by
    intro time taken
    rw [Scenario.isDetached, ← recut.consumer]
    exact stays time taken
  obtain ⟨last, reaches, alike, lastConnects, lastPhase⟩ :=
    Scenario.stops otherStays (wake_now recut together wakes)
      (together.alike.now ▸ brings)
  have bothOpen := together.phases.isOpen_eq
  refine ⟨last, reaches, .of_ended ?_ ?_ phase lastPhase⟩
  · exact seen.symm.trans
      ((together.alike.stop bothOpen termination).trans alike)
  · rw [connects, lastConnects]
    exact together.connects

/-- When one session calls the connector, the other does. -/
private theorem step_called
    {time : Milliseconds}
    (phase : state.phase = .connecting)
    (wakes : first.wake state (some state.now) = .ready time) :
    ∃ otherNext,
      Reaches second other otherNext ∧
        Together first
          ((({ state.attempt with connects := state.connects.tail }).record
            .called).enter
              (.dialing
                ((state.connects.headD first.afterwards).due state.now)
                (state.connects.headD first.afterwards).answer))
          otherNext := by
  obtain ⟨planned, later⟩ := together.planned recut
  have alike := together.alike
  have phases := together.phases
  rw [phase] at phases
  refine ⟨_, .of_transition (.called _ phases.of_connecting
    (together.wake_now recut wakes) rfl), ?alike, later, ?phases⟩
  case alike =>
    exact ((alike.attempt.plan _ _).record .called).enter _ _
  case phases =>
    rw [State.phase_enter, State.phase_enter, ← alike.now,
      ← planned.due_eq]
    exact .dialing planned.answer

/--
When the call of one session is answered with a stream, that of the other is.
-/
private theorem step_opened
    (limit : state.decoder.limit = first.settings.maxFrameBytes)
    {due : Option Milliseconds}
    {reads : List TimedRead}
    {time : Milliseconds}
    (phase : state.phase = .dialing due (.opened reads))
    (wakes : first.wake state due = .ready time) :
    ∃ otherNext,
      Reaches second other otherNext ∧
        Together first
          (({ state.waitUntil time with
              decoder := state.decoder.reset }.record
            (.opened state.attempts)).enter (.streaming reads))
          otherNext := by
  have alike := together.alike
  have phases := together.phases
  rw [phase] at phases
  obtain ⟨answer, otherPhase, answers⟩ := phases.of_dialing
  obtain ⟨others, rfl, begins⟩ := PhasesAlike.of_opened answers
  refine ⟨_, .of_transition (.opened otherPhase (together.wake recut wakes)),
    ?alike, together.connects, ?phases⟩
  case alike =>
    rw [alike.attempts]
    exact ((alike.waitUntil time).reset.record _).enter _ _
  case phases =>
    change PhasesAlike _ _ (.streaming reads) (.new state.decoder.limit)
      (.streaming others) (.new other.decoder.limit)
    rw [← alike.limit, limit]
    exact begins

/-- Both begin to read, or one of them reads a chunk that comes at once. -/
private theorem step_reading
    {reads : List TimedRead}
    {time : Milliseconds}
    (phase : state.phase = .streaming reads)
    (wakes : first.wake state (some state.now) = .ready time) :
    ∃ otherNext,
      Reaches second other otherNext ∧
        Together first
          ((state.record .reading).enter
            (.reading ((reads.headD .ended).due state.now)
              (first.settings.idleLimit.map (state.now + ·))
              (reads.headD .ended).answer reads.tail))
          otherNext := by
  have alike := together.alike
  have phases := together.phases
  have otherWakes := together.wake_now recut wakes
  rw [phase] at phases
  rcases phases.of_streaming with
      ⟨wait, piece, otherPiece, later, others, rfl, otherPhase, answers⟩ |
      ⟨frames, ending, pieces, ends, rfl, yields, uncut, brings⟩
  · refine ⟨_, .of_transition (.reading _ otherPhase otherWakes rfl),
      (alike.record .reading).enter _ _, together.connects, ?_⟩
    rw [State.phase_enter, State.phase_enter, ← alike.now, ← recut.settings]
    exact .awaiting answers
  · -- A chunk is still to come here, and nothing of it is seen; or the ending
    -- is read, and the other must come to it first.
    cases pieces with
    | cons piece pieces =>
        exact ⟨other, .refl other,
          (Scenario.alike_reading state _).symm.trans alike,
          together.connects,
          .bringing ends
            (.reading (Scenario.comesInTime_at_once _ _) yields) brings⟩
    | nil =>
        obtain ⟨settled, readsOn, settles⟩ :=
          Scenario.settles otherWakes (alike.now ▸ brings)
        cases settles with
        | given shape =>
            rw [yields.frames_eq_nil uncut] at shape
            cases shape
        | read _ settledPhase =>
            have alikeBoth := alike.trans readsOn.alike
            refine ⟨_, readsOn.reaches.trans (.of_transition
                (.reading _ settledPhase
                  (Scenario.wake_now_of_alike readsOn.alike otherWakes) rfl)),
              (alikeBoth.record .reading).enter _ _,
              readsOn.connects ▸ together.connects, ?_⟩
            rw [State.phase_enter, State.phase_enter, ← alikeBoth.now,
              ← recut.settings]
            exact .awaiting (.ending ends)

/--
Both read a chunk, or the other stays where it is: the chunk comes at once, and
nothing of it is seen.
-/
private theorem step_received
    {due idle : Option Milliseconds}
    {piece : List UInt8}
    {reads : List TimedRead}
    {time : Milliseconds}
    (phase : state.phase = .reading due idle (.chunk piece) reads)
    (inTime : Scenario.comesInTime due idle = true)
    (wakes : first.wake state due = .ready time) :
    ∃ otherNext,
      Reaches second other otherNext ∧
        Together first
          (({ state.waitUntil time with
              decoder := state.decoder.feed piece }.record
            (.received piece)).enter (.delivering reads))
          otherNext := by
  have alike := together.alike
  have phases := together.phases
  rw [phase] at phases
  rcases phases.of_reading with
      ⟨_, _, otherPhase, answers⟩ |
      ⟨_, _, _, _, ends, rfl, -, same, rfl, yields, brings⟩
  · cases answers with
    | ending noChunk =>
        exact (noChunk _ rfl).elim
    | chunks ends yields otherYields =>
        refine ⟨_, .of_transition (.received otherPhase inTime
            (together.wake recut wakes)), ?_, together.connects,
          .bringing ends (.delivering yields.feed)
            (.delivering otherYields.feed)⟩
        exact (Scenario.alike_received (state.waitUntil _) _ _).symm.trans
          ((alike.waitUntil _).trans
            (Scenario.alike_received (other.waitUntil _) _ _))
  · cases same
    have atOnce := Nat.le_of_eq (Scenario.now_of_wake_ready wakes)
    have waited := State.Alike.waited state atOnce
    refine ⟨other, .refl other, ?seen, together.connects, ?phases⟩
    case seen =>
      exact (waited.trans
        (Scenario.alike_received (state.waitUntil _) _ _)).symm.trans alike
    case phases =>
      change PhasesAlike _ (state.waitUntil _).now _ _ _ _
      rw [← waited.now]
      exact .bringing ends (.delivering yields.feed) brings

/-- Both give the same event to the consumer. -/
private theorem step_offered
    (stays : ∀ time taken, first.isDetached time taken = false)
    {reads : List TimedRead}
    {frame : Frame}
    {decoder : Decoder}
    {time : Milliseconds}
    (event : Downstream.Event)
    (phase : state.phase = .delivering reads)
    (next : state.decoder.next = (some frame, decoder))
    (wakes : first.wakeForCancel state (some state.now) = .ready time)
    (shape : event = ⟨Downstream.messageName, frame.data⟩) :
    ∃ otherNext,
      Reaches second other otherNext ∧
        Together first
          (({ state with decoder }.record (.offered event)).enter
            (.emitting
              ((first.consumer.delay state.forwarded).map (state.now + ·))
              event reads))
          otherNext := by
  have alike := together.alike
  have phases := together.phases
  rw [phase] at phases
  obtain ⟨frames, ending, pieces, ends, rfl, yields, brings⟩ :=
    phases.of_delivering
  obtain ⟨later, framesShape, rest, -⟩ := yields.next
  rw [next] at framesShape rest
  have ready := (Scenario.wakeForCancel_of_stays stays state _).symm.trans wakes
  obtain ⟨settled, readsOn, settles⟩ :=
    Scenario.settles (together.wake_now recut ready) (alike.now ▸ brings)
  cases settles with
  | read nothing =>
      rw [nothing] at framesShape
      cases framesShape
  | @given otherFrame otherLater others otherDecoder otherShape settledPhase
      otherNext otherYields =>
      rw [otherShape] at framesShape
      simp only [Option.toList_some, List.singleton_append,
        List.cons.injEq] at framesShape
      obtain ⟨rfl, rfl⟩ := framesShape
      have alikeBoth := alike.trans readsOn.alike
      have otherWakes :
          second.wakeForCancel settled (some settled.now) = .ready time := by
        rw [← alikeBoth.now, ← recut.wakeForCancel_eq alikeBoth]
        exact wakes
      refine ⟨_, readsOn.reaches.trans (.of_transition
          (.offered event settledPhase otherNext otherWakes shape)),
        ?alike, readsOn.connects ▸ together.connects, ?phases⟩
      case alike =>
        have taken :=
          (Scenario.alike_drained next state.phase).symm.trans
            (alikeBoth.trans
              (Scenario.alike_drained otherNext settled.phase))
        exact (taken.record (.offered event)).enter _ _
      case phases =>
        rw [State.phase_enter, State.phase_enter, ← alikeBoth.now,
          ← alikeBoth.forwarded, ← recut.consumer]
        exact .emitting ends rest otherYields

/--
Whatever one session does, the other does too, after some more reading or,
if it is a read of a chunk, not at all.
-/
theorem step
    (stays : ∀ time taken, first.isDetached time taken = false)
    (limit : state.decoder.limit = first.settings.maxFrameBytes)
    {events : List Event}
    {next : State}
    (transition : first.Transition state events next) :
    ∃ otherNext,
      Reaches second other otherNext ∧ Together first next otherNext := by
  have alike := together.alike
  have connects := together.connects
  have phases := together.phases
  have bothOpen := phases.isOpen_eq
  -- Outside of the chunks of a stream both take the same transition.  Among
  -- them, the other first catches up with what is seen of a transition, and
  -- stays where it is if nothing is seen of it.
  cases transition with
  | attemptStopped phase wakes =>
      rw [phase] at phases
      exact ⟨_, .of_transition (.attemptStopped phases.of_connecting
          (together.wake_now recut wakes)),
        .stop alike.attempt connects bothOpen _⟩
  | called connect phase wakes scripted =>
      subst scripted
      exact together.step_called recut phase wakes
  | dialStopped phase wakes =>
      rw [phase] at phases
      obtain ⟨answer, otherPhase, -⟩ := phases.of_dialing
      exact ⟨_, .of_transition (.dialStopped otherPhase
          (together.wake recut wakes)),
        .stop (alike.waitUntil _) connects bothOpen _⟩
  | refused phase wakes =>
      rw [phase] at phases
      obtain ⟨answer, otherPhase, answers⟩ := phases.of_dialing
      cases answers with
      | refused error =>
          exact ⟨_, .of_transition (.refused otherPhase
              (together.wake recut wakes)),
            .backOff ((alike.waitUntil _).record _) connects recut _⟩
  | opened phase wakes =>
      exact together.step_opened recut limit phase wakes
  | dialSilent phase wakes =>
      rw [phase] at phases
      obtain ⟨answer, otherPhase, answers⟩ := phases.of_dialing
      cases answers with
      | silent =>
          refine ⟨_, .of_transition (.dialSilent otherPhase
              (together.wake recut wakes)),
            alike.waitUntil _, connects, ?_⟩
          change PhasesAlike _ _ state.phase _ other.phase _
          rw [phase, otherPhase]
          exact .dialing .silent
  | streamStopped phase wakes =>
      rw [phase] at phases
      rcases phases.of_streaming with
          ⟨_, _, _, _, _, -, otherPhase, -⟩ | ⟨_, _, _, -, -, -, -, brings⟩
      · exact ⟨_, .of_transition (.streamStopped otherPhase
            (together.wake_now recut wakes)),
          .stop alike connects bothOpen _⟩
      · exact together.leaves_of_brings recut stays brings wakes (.refl _)
          (State.connects_stop _ _) (State.phase_stop _ _)
  | reading read phase wakes scripted =>
      subst scripted
      exact together.step_reading recut phase wakes
  | readStopped phase wakes =>
      rw [phase] at phases
      rcases phases.of_reading with
          ⟨_, _, otherPhase, -⟩ |
          ⟨_, _, _, _, -, rfl, inTime, rfl, rfl, -, brings⟩
      · exact ⟨_, .of_transition (.readStopped otherPhase
            (together.wake recut wakes)),
          .stop (alike.waitUntil _) connects bothOpen _⟩
      · rw [inTime, if_pos rfl] at wakes
        exact together.leaves_of_brings recut stays brings wakes
          ((State.Alike.waited state (Scenario.le_of_wake_stopped wakes)).stop
            rfl _)
          (State.connects_stop _ _) (State.phase_stop _ _)
  | received phase inTime wakes =>
      exact together.step_received recut phase inTime wakes
  | readFailed phase inTime wakes =>
      rw [phase] at phases
      exact ⟨_, .of_transition (.readFailed (phases.of_reading_ending nofun)
          inTime (together.wake recut wakes)),
        .leave (alike.waitUntil _) connects recut _⟩
  | readEnded phase inTime wakes =>
      rw [phase] at phases
      exact ⟨_, .of_transition (.readEnded (phases.of_reading_ending nofun)
          inTime (together.wake recut wakes)),
        .leave (alike.waitUntil _) connects recut _⟩
  | readSilent phase inTime wakes =>
      rw [phase] at phases
      have noChunk : ∀ bytes, ReadAnswer.silent ≠ .chunk bytes := nofun
      have otherPhase := phases.of_reading_ending noChunk
      refine ⟨_, .of_transition (.readSilent otherPhase inTime
          (together.wake recut wakes)),
        alike.waitUntil _, connects, ?_⟩
      change PhasesAlike _ _ state.phase _ other.phase _
      rw [phase, otherPhase]
      exact .awaiting (.ending noChunk)
  | readIdle error phase late wakes idle =>
      rw [phase] at phases
      rcases phases.of_reading with
          ⟨_, _, otherPhase, -⟩ | ⟨_, _, _, _, -, rfl, inTime, -⟩
      · rw [recut.settings] at idle
        exact ⟨_, .of_transition (.readIdle error otherPhase late
            (together.wake recut wakes) idle),
          .leave (alike.waitUntil _) connects recut _⟩
      · rw [inTime] at late
        cases late
  | @deliveryStopped _ _ decoder _ _ phase next wakes =>
      rw [phase] at phases
      obtain ⟨_, _, _, -, -, -, brings⟩ := phases.of_delivering
      rw [Scenario.wakeForCancel_of_stays stays] at wakes
      have limits : decoder.limit = state.decoder.limit := by
        rw [← state.decoder.next_limit, next]
      exact together.leaves_of_brings recut stays brings wakes
        ((State.Alike.decoding state decoder limits).stop rfl _)
        (State.connects_stop _ _) (State.phase_stop _ _)
  | offered event phase next wakes shape =>
      exact together.step_offered recut stays event phase next wakes shape
  | tooLarge phase next exceeds =>
      rw [together.checkCapacity_ok phase next] at exceeds
      cases exceeds
  | drained phase next within =>
      rw [phase] at phases
      obtain ⟨_, _, _, ends, rfl, yields, brings⟩ := phases.of_delivering
      obtain ⟨later, rfl, rest, idle⟩ := yields.next
      rw [next] at brings rest idle
      exact ⟨other, .refl other,
        (Scenario.alike_drained next _).symm.trans alike, connects,
        .bringing ends (.streaming rest (idle rfl).1) brings⟩
  | emitStopped phase wakes =>
      rw [phase] at phases
      obtain ⟨_, _, _, _, -, -, otherPhase, -⟩ := phases.of_emitting
      exact ⟨_, .of_transition (.emitStopped otherPhase
          (together.wakeForCancel recut wakes)),
        .stop (alike.waitUntil _) connects bothOpen _⟩
  | accepted phase wakes takes =>
      rw [phase] at phases
      obtain ⟨_, _, _, _, ends, rfl, otherPhase, yields, otherYields⟩ :=
        phases.of_emitting
      rw [recut.consumer, alike.forwarded] at takes
      exact ⟨_, .of_transition (.accepted otherPhase
          (together.wakeForCancel recut wakes) takes),
        ((alike.waitUntil _).take.record _).enter _ _, connects,
        .bringing ends (.delivering yields) (.delivering otherYields)⟩
  | turnedAway phase wakes gone =>
      rw [phase] at phases
      obtain ⟨_, _, _, _, -, -, otherPhase, -⟩ := phases.of_emitting
      rw [recut.consumer, alike.forwarded] at gone
      exact ⟨_, .of_transition (.turnedAway otherPhase
          (together.wakeForCancel recut wakes) gone),
        .stop ((alike.waitUntil _).record _) connects bothOpen _⟩
  | pauseStopped phase wakes =>
      rw [phase] at phases
      exact ⟨_, .of_transition (.pauseStopped phases.of_pausing
          (together.wake recut wakes)),
        .stop (alike.waitUntil _) connects bothOpen _⟩
  | resumed phase wakes =>
      rw [phase] at phases
      exact ⟨_, .of_transition (.resumed phases.of_pausing
          (together.wake recut wakes)),
        (alike.waitUntil _).enter _ _, connects, .connecting⟩

end

private theorem initial (recut : first.Recut second) :
    Together first first.initial second.initial where
  alike :=
    ⟨rfl, rfl, rfl, rfl, congrArg Settings.maxFrameBytes recut.settings, rfl⟩
  connects := recut.connects
  phases := .connecting

/-- Both have ended with the same report, or neither has ended. -/
private theorem report?_eq (together : Together first state other) :
    state.report? = other.report? := by
  obtain ⟨alike, -, phases⟩ := together
  rw [State.report?, State.report?, alike.now, alike.attempts,
    alike.forwarded]
  generalize state.phase = phase at phases ⊢
  generalize other.phase = otherPhase at phases ⊢
  cases phases with
  | bringing _ brings otherBrings =>
      cases brings <;> cases otherBrings <;> rfl
  | _ =>
      rfl

/-- Sessions that are together are seen alike. -/
private theorem seenAlike (together : Together first state other) :
    SeenAlike state other :=
  ⟨together.alike.now, together.report?_eq, together.alike.outward⟩

end Together

/-! ## Whole runs -/

/-- No transition changes the limit of the decoder. -/
theorem Scenario.Transition.limit
    {scenario : Scenario}
    {state next : State}
    {events : List Event}
    (transition : scenario.Transition state events next) :
    next.decoder.limit = state.decoder.limit := by
  cases transition with
  | deliveryStopped _ next =>
      have limit := state.decoder.next_limit
      rw [next] at limit
      rw [State.decoder_stop]
      exact limit
  | offered _ _ next | tooLarge _ next | drained _ next =>
      have limit := state.decoder.next_limit
      rw [next] at limit
      exact limit
  | attemptStopped | dialStopped | streamStopped | readStopped | emitStopped
  | turnedAway | pauseStopped =>
      exact congrArg Decoder.limit (State.decoder_stop _ _)
  | _ =>
      rfl

namespace Reaches

variable {first second : Scenario}

/-- The limit of the decoder is that of the settings. -/
theorem limit
    {state : State}
    (reaches : Reaches first first.initial state) :
    state.decoder.limit = first.settings.maxFrameBytes :=
  reaches.invariant
    (fun state => state.decoder.limit = first.settings.maxFrameBytes)
    (fun transition before => transition.limit.trans before)
    rfl

/-- Wherever one run comes, the other comes to a state that goes on alike. -/
theorem together
    (recut : first.Recut second)
    (stays : ∀ time taken, first.isDetached time taken = false)
    {state : State}
    (reaches : Reaches first first.initial state) :
    ∃ other,
      Reaches second second.initial other ∧ Together first state other := by
  refine reaches.invariant_of_reachable
    (fun state =>
      ∃ other,
        Reaches second second.initial other ∧ Together first state other)
    ?_ ⟨_, .refl _, .initial recut⟩
  rintro state events next toState transition ⟨other, toOther, together⟩
  obtain ⟨otherNext, more, togetherNext⟩ :=
    together.step recut stays toState.limit transition
  exact ⟨otherNext, toOther.trans more, togetherNext⟩

/-- No connection is left because too many bytes wait. -/
theorem not_tooLarge
    (recut : first.Recut second)
    (stays : ∀ time taken, first.isDetached time taken = false)
    {state : State}
    (reaches : Reaches first first.initial state)
    {timed : Timed}
    (recorded : timed ∈ state.history)
    (error : FrameTooLarge)
    (failures : Nat)
    (delay : Milliseconds) :
    timed.event ≠ .backedOff (.read (.tooLarge error)) failures delay := by
  obtain ⟨time, event⟩ := timed
  obtain ⟨before, after, split⟩ := List.append_of_mem recorded
  rintro rfl
  obtain ⟨origin, -, record, toOrigin, -, -, cause⟩ := reaches.cause split
  cases cause with
  | tooLarge phase next exceeds =>
      obtain ⟨other, -, together⟩ := toOrigin.together recut stays
      rw [together.checkCapacity_ok phase next] at exceeds
      cases exceeds

end Reaches

/-- What is seen of a run is seen of every run on streams cut otherwise. -/
theorem Scenario.Recut.followedBy
    {first second : Scenario}
    (recut : first.Recut second)
    (stays : ∀ time taken, first.isDetached time taken = false) :
    first.FollowedBy second := by
  intro state reaches
  obtain ⟨other, toOther, together⟩ := reaches.together recut stays
  exact ⟨other, toOther, together.seenAlike⟩

end EventRelay.Session
