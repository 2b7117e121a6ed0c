import EventRelay.Proofs.Session.Causes

namespace EventRelay.Session

/-!
# Accounts of a session

The counters of a report, the metrics, and what happened agree when a session
has ended.  Every attempt but the one under way was followed by a wait, and
every wait has its cause.
-/

open Timing (Milliseconds)

namespace Event

/-- Whether an attempt is counted. -/
def isAttempt : Event → Bool
  | .attempted _ =>
      true
  | _ =>
      false

end Event

namespace State

/-- Only an ended session reports, and it reports its counters. -/
private theorem of_report?
    {state : State}
    {report : Report}
    (ended : state.report? = some report) :
    ∃ termination,
      state.phase = .ended termination ∧
        report =
          ⟨termination, state.attempts, state.forwarded, state.now⟩ := by
  unfold report? at ended
  split at ended
  · next termination phase =>
      exact ⟨termination, phase, (Option.some.inj ended).symm⟩
  · cases ended

end State

namespace Settings

/-- Without a URL that can be read there is none to call. -/
private theorem usableUrl_eq_error
    {settings : Settings}
    (unusable :
      ∀ text, settings.url = some text → ∀ url, Url.ofString text ≠ .ok url) :
    ∃ reason, settings.usableUrl = .error reason := by
  unfold usableUrl
  split
  · exact ⟨_, rfl⟩
  · next text given =>
      split
      · next url parses =>
          exact (unusable text given url parses).elim
      · exact ⟨_, rfl⟩

end Settings

namespace Phase

/-- Whether the session waits before it connects again. -/
def isPausing : Phase → Bool
  | .pausing _ =>
      true
  | _ =>
      false

/-- Whether an attempt was made that no wait has followed. -/
def isAttempting : Phase → Bool
  | .connecting =>
      false
  | .pausing _ =>
      false
  | _ =>
      true

end Phase

/-- The last attempt of a history with what happened before. -/
def History.EndsWithAttempt
    (history before : History)
    (time number : Nat) : Prop :=
  ∃ after,
    history = before ++ ⟨time, .attempted number⟩ :: after ∧
      ∀ timed ∈ after, timed.event.isAttempt = false

namespace History.EndsWithAttempt

/-- Events other than attempts leave the last attempt where it was. -/
private theorem append
    {history before : History}
    {time number : Nat}
    {events : List Event}
    (ends : history.EndsWithAttempt before time number)
    (now : Milliseconds)
    (others : ∀ event ∈ events, event.isAttempt = false) :
    EndsWithAttempt (history ++ events.map (Timed.mk now)) before time
      number := by
  obtain ⟨after, rfl, later⟩ := ends
  refine ⟨after ++ events.map (Timed.mk now), by simp, ?_⟩
  intro timed member
  rcases List.mem_append.mp member with old | new
  · exact later timed old
  · obtain ⟨event, present, rfl⟩ := List.mem_map.mp new
    exact others event present

private theorem of_attempt
    (history : History)
    (time number : Nat)
    {events : List Event}
    (others : ∀ event ∈ events, event.isAttempt = false) :
    EndsWithAttempt
      (history ++ (.attempted number :: events).map (Timed.mk time))
      history time number := by
  have alone :
      EndsWithAttempt (history ++ [⟨time, .attempted number⟩]) history time
        number :=
    ⟨[], rfl, by simp⟩
  simpa using alone.append time others

end History.EndsWithAttempt

/--
Every attempt but the last one called the source, and the last one did so too
unless the session had to stop when it was made.
-/
structure CallsCounted (scenario : Scenario) (state : State) : Prop where
  running :
    (∀ termination, state.phase ≠ .ended termination) →
      state.history.calls = state.attempts
  last :
    state.phase ≠ .connecting →
      ∃ before time,
        state.history.EndsWithAttempt before time state.attempts ∧
          state.history.calls +
              (scenario.stopReason? time
                before.deliveries.length).isSome.toNat =
            state.attempts

namespace State

@[simp] theorem attempts_stop (state : State) (termination : Termination) :
    (state.stop termination).attempts = state.attempts := by
  unfold stop
  split <;> rfl

end State

namespace Scenario.Transition

variable {scenario : Scenario}
variable {state next : State}
variable {events : List Event}

/-- Only a session that is about to connect makes attempts and calls. -/
private theorem attempts_of_connected
    (transition : scenario.Transition state events next)
    (connected : state.phase ≠ .connecting) :
    next.attempts = state.attempts ∧
      ∀ event ∈ events, event.isAttempt = false ∧ event.isCall = false := by
  cases transition with
  | attemptStopped phase | called _ phase =>
      exact (connected phase).elim
  | dialStopped | streamStopped | readStopped | deliveryStopped | emitStopped
  | turnedAway | pauseStopped =>
      exact ⟨State.attempts_stop _ _, by simp [Event.isAttempt, Event.isCall]⟩
  | _ =>
      exact ⟨rfl, by simp [backoffEvent, Event.isAttempt, Event.isCall]⟩

/-- A transition keeps account of the calls. -/
theorem callsCounted
    (transition : scenario.Transition state events next)
    (forwarded : state.forwarded = state.history.deliveries.length)
    (before : CallsCounted scenario state) :
    CallsCounted scenario next := by
  have calls := before.running transition.running
  have grown := transition.history
  -- An attempt is made where the session is about to connect, and the source is
  -- called unless the session must stop at that very moment.
  by_cases connecting : state.phase = .connecting
  · cases transition with
    | attemptStopped _ wakes =>
        have reason := stopReason?_of_stopped_now wakes
        rw [forwarded] at reason
        refine ⟨fun running => (running _ (State.phase_stop _ _)).elim,
          fun _ => ⟨state.history, state.now, ?_, ?_⟩⟩
        · rw [grown, State.now_stop, State.attempts_stop]
          exact .of_attempt _ _ _ (by simp [Event.isAttempt])
        · rw [grown, History.calls_append, calls, State.attempts_stop, reason]
          rfl
    | called _ _ wakes =>
        have unheard := stopReason?_of_ready_now wakes
        rw [forwarded] at unheard
        refine ⟨fun _ => ?_, fun _ => ⟨state.history, state.now, ?_, ?_⟩⟩
        · rw [grown, History.calls_append, calls]
          rfl
        · rw [grown]
          exact .of_attempt _ _ _ (by simp [Event.isAttempt])
        · rw [grown, History.calls_append, calls, unheard]
          rfl
    | _ =>
        simp_all
  · obtain ⟨attempts, others⟩ := transition.attempts_of_connected connecting
    have noCall : next.history.calls = state.history.calls := by
      rw [grown, History.calls_append, List.countP_eq_zero.mpr, Nat.add_zero]
      intro event member
      simp [(others event member).2]
    obtain ⟨earlier, time, ends, counted⟩ := before.last connecting
    rw [← attempts, ← noCall] at calls counted
    rw [← attempts] at ends
    refine ⟨fun _ => calls, fun _ => ⟨earlier, time, ?_, counted⟩⟩
    rw [grown]
    exact ends.append _ fun event member => (others event member).1

/-- While a session runs, a wait has followed each attempt but the present. -/
theorem attempts_eq
    (transition : scenario.Transition state events next)
    (running : ∀ termination, next.phase ≠ .ended termination)
    (before :
      state.attempts =
        state.history.backoffs + state.phase.isAttempting.toNat) :
    next.attempts = next.history.backoffs + next.phase.isAttempting.toNat := by
  rw [transition.history, History.backoffs_append]
  cases transition with
  | attemptStopped | dialStopped | streamStopped | readStopped
  | deliveryStopped | emitStopped | turnedAway | pauseStopped =>
      exact (running _ (State.phase_stop _ _)).elim
  | called _ phase =>
      rw [phase] at before
      exact congrArg (· + 1) before
  | _ =>
      simp_all [Phase.isAttempting, Event.isBackoff, backoffEvent, leave,
        backOff, State.waitUntil, State.enter, State.record, State.close]

/-- A session that does not end while it waits has made one more attempt. -/
theorem attempts_of_ended
    (transition : scenario.Transition state events next)
    {termination : Termination}
    (phase : next.phase = .ended termination)
    (before :
      state.attempts =
        state.history.backoffs + state.phase.isAttempting.toNat) :
    next.attempts =
      next.history.backoffs + (!state.phase.isPausing).toNat := by
  rw [transition.history, History.backoffs_append]
  cases transition with
  | attemptStopped origin =>
      rw [origin] at before ⊢
      rw [State.attempts_stop]
      exact congrArg (· + 1) before
  | dialStopped origin | streamStopped origin | readStopped origin
  | deliveryStopped origin | emitStopped origin | turnedAway origin
  | pauseStopped origin =>
      rw [origin] at before ⊢
      rw [State.attempts_stop]
      exact before
  | _ =>
      simp_all [State.waitUntil, leave, backOff]

end Scenario.Transition

namespace Phase

/-- Whether the session has not ended. -/
def isRunning : Phase → Bool
  | .ended _ =>
      false
  | _ =>
      true

end Phase

/-- The events of a transition end a session or leave it active. -/
private theorem Scenario.Transition.active_eq
    {scenario : Scenario}
    {state next : State}
    {events : List Event}
    (transition : scenario.Transition state events next) :
    1 + Event.sumOf (Event.adds (· == .activeSessions)) events =
      next.phase.isRunning.toNat := by
  cases transition with
  | attemptStopped | dialStopped | streamStopped | readStopped
  | deliveryStopped | emitStopped | turnedAway | pauseStopped =>
      rw [State.phase_stop]
      rfl
  | dialSilent phase | readSilent phase =>
      rw [State.waitUntil, phase]
      rfl
  | _ =>
      rfl

namespace Reaches

variable {scenario : Scenario}
variable {state : State}

/-- A session is active until it has ended. -/
theorem value_activeSessions
    (reaches : Reaches scenario scenario.initial state) :
    state.history.metrics.value .activeSessions =
      state.phase.isRunning.toNat := by
  refine reaches.invariant
    (fun state =>
      state.history.metrics.value .activeSessions =
        state.phase.isRunning.toNat)
    ?_ rfl
  intro state events next transition before
  have active : state.phase.isRunning = true := by
    cases phase : state.phase with
    | ended =>
        exact (transition.running _ phase).elim
    | _ =>
        rfl
  rw [active, History.value_metrics] at before
  rw [History.value_metrics, transition.history_events, Event.sumOf_append,
    before]
  exact transition.active_eq

/-- While a session runs, a wait has followed each attempt but the present. -/
theorem attempts_eq
    (reaches : Reaches scenario scenario.initial state)
    (running : ∀ termination, state.phase ≠ .ended termination) :
    state.attempts =
      state.history.backoffs + state.phase.isAttempting.toNat := by
  refine reaches.invariant
    (fun state =>
      (∀ termination, state.phase ≠ .ended termination) →
        state.attempts =
          state.history.backoffs + state.phase.isAttempting.toNat)
    ?_ (fun _ => rfl) running
  intro state events next transition before running
  exact transition.attempts_eq running (before transition.running)

/--
In every reachable state the attempts are the calls and those that were
stopped first.
-/
private theorem callsCounted (reaches : Reaches scenario scenario.initial state) :
    CallsCounted scenario state := by
  refine reaches.invariant_of_reachable (CallsCounted scenario) ?_
    ⟨fun _ => rfl, fun connected => (connected rfl).elim⟩
  intro state events next reaches transition before
  exact transition.callsCounted reaches.forwarded_eq before

/-- Whatever has ended was ended by a transition of the run. -/
theorem exists_last
    (reaches : Reaches scenario scenario.initial state)
    {termination : Termination}
    (phase : state.phase = .ended termination) :
    ∃ origin events,
      Reaches scenario scenario.initial origin ∧
        scenario.Transition origin events state := by
  rcases reaches.eq_or_last with rfl | last
  · cases phase
  · exact last

end Reaches

/--
The accounts of a session that one step brought from a last running state to
its end.
-/
structure Balanced
    (scenario : Scenario)
    (origin last : State)
    (report : Report) : Prop where
  /-- Events taken. -/
  forwarded : report.forwarded = last.history.deliveries.length
  forwardedFrames :
    last.history.metrics.value .forwardedFrames = report.forwarded
  /-- Streams opened, all of which are closed. -/
  opened :
    last.history.metrics.value (.connects "ok") = last.history.openings
  closed : last.history.closings = last.history.openings
  /-- Attempts that were refused, by the label of the refusal. -/
  refused :
    ∀ label, label ≠ "ok" →
      last.history.metrics.value (.connects label) =
        last.history.refusals (·.label == label)
  /-- Waits: one for each refusal and each stream that was left. -/
  waits :
    last.history.metrics.total "relay_backoffs_total" =
      last.history.refusals (fun _ => true) +
        last.history.leavings (fun _ => true)
  /-- Waits by the label of their cause. -/
  reasons :
    ∀ label,
      last.history.metrics.value (.backoffs label) =
        last.history.refusals (·.label == label) +
          last.history.leavings (·.label == label)
  /-- Before each wait the session met what the reason says. -/
  causes :
    ∀ (before after : History) time reason failures delay,
      last.history =
        before ++ ⟨time, .backedOff reason failures delay⟩ :: after →
      ∃ source next record,
        Reaches scenario scenario.initial source ∧
          scenario.step? source = some next ∧
          before = source.history ++ [⟨time, record⟩] ∧
          Cause scenario source record reason
  /-- A stream was left unless the session ended with it. -/
  left :
    last.history.leavings (fun _ => true) + origin.phase.isOpen.toNat =
      last.history.openings
  /-- Attempts: one for each wait, and one more if the end was in no wait. -/
  attempts :
    report.attempts =
      last.history.refusals (fun _ => true) +
          last.history.leavings (fun _ => true) +
        (!origin.phase.isPausing).toNat
  /-- Calls: one for each attempt, unless the last one had to be stopped. -/
  calls :
    ∃ before time,
      last.history.EndsWithAttempt before time report.attempts ∧
        last.history.calls +
            (scenario.stopReason? time
              before.deliveries.length).isSome.toNat =
          report.attempts
  active : last.history.metrics.value .activeSessions = 0

/-- At the step that ends a session, its accounts balance. -/
private theorem Reaches.balanced
    {scenario : Scenario}
    {origin last : State}
    {events : List Event}
    {report : Report}
    (reaches : Reaches scenario scenario.initial origin)
    (transition : scenario.Transition origin events last)
    (ended : last.report? = some report) :
    Balanced scenario origin last report := by
  obtain ⟨termination, phase, rfl⟩ := State.of_report? ended
  have toLast := reaches.trans (.of_transition transition)
  have waits := toLast.waits_eq fun _ => true
  have attempts :=
    transition.attempts_of_ended phase (reaches.attempts_eq transition.running)
  have counted := toLast.forwarded_eq
  rw [History.backoffs_eq_waits, waits] at attempts
  constructor
  case forwarded =>
    exact counted
  case forwardedFrames =>
    rw [History.value_forwardedFrames, ← counted]
  case opened =>
    exact last.history.value_connects_ok
  case closed =>
    have inOrder := toLast.streamAfterAll?_eq
    rw [phase] at inOrder
    exact (History.openings_eq inOrder).symm
  case refused =>
    intro label failure
    exact last.history.value_connects_refused failure
  case waits =>
    rw [History.total_backoffs, History.backoffs_eq_waits, waits]
    rfl
  case reasons =>
    intro label
    rw [History.value_backoffs, toLast.waits_eq]
    rfl
  case causes =>
    intro before after time reason failures delay split
    exact toLast.cause split
  case left =>
    exact reaches.leavings_eq transition phase
  case attempts =>
    exact attempts
  case calls =>
    exact toLast.callsCounted.last (by rw [phase]; exact Phase.noConfusion)
  case active =>
    rw [toLast.value_activeSessions, phase]
    rfl

/--
When a session ends, its report, the metrics and what happened agree.  The
events that it counts are those that were taken; streams opened are closed;
each refusal and each stream that was left made one wait, under its own label;
each attempt but that of the end was followed by a wait; each attempt called
the source, unless the session had to stop when it made the last one; and no
session is active any more.  Without a usable URL a session ends at once, and
nothing happens.
-/
theorem accounts_balance :
    (∀ scenario state report,
      Reaches scenario scenario.initial state →
      state.report? = some report →
      ∃ origin,
        Reaches scenario scenario.initial origin ∧
          scenario.step? origin = some state ∧
          Balanced scenario origin state report) ∧
    (∀ (settings : Settings) (around : Url → Scenario) (horizon : Milliseconds),
      (∀ text, settings.url = some text →
        ∀ url, Url.ofString text ≠ .ok url) →
      (settings.launch around horizon).outcome =
          .ended ⟨.unconfigured, 0, 0, 0⟩ ∧
        (settings.launch around horizon).history = [] ∧
        (settings.launch around horizon).metrics = .empty) := by
  constructor
  · intro scenario state report reaches ended
    obtain ⟨termination, phase, -⟩ := State.of_report? ended
    obtain ⟨origin, events, toOrigin, transition⟩ := reaches.exists_last phase
    exact ⟨origin, toOrigin, transition.step?_eq,
      toOrigin.balanced transition ended⟩
  · intro settings around horizon unusable
    obtain ⟨reason, unconfigured⟩ := Settings.usableUrl_eq_error unusable
    rw [Settings.launch, unconfigured]
    exact ⟨rfl, rfl, rfl⟩

/--
A refusal, a stream that is left, and one at which the session ends; and a
session without a URL.
-/
theorem accounts_of_reconnecting :
    let last := Scenario.reconnecting.stateAt 100
    (∃ origin,
      Scenario.reconnecting.step? origin = some last ∧
        Balanced Scenario.reconnecting origin last ⟨.consumerGone, 3, 2, 13⟩) ∧
      last.history.metrics.value (.backoffs "status") = 1 ∧
      last.history.metrics.value (.backoffs "end_of_stream") = 1 ∧
      (Settings.launch ⟨none, .fixed 5, none, 64⟩
          (fun _ => Scenario.reconnecting) 100).outcome =
        .ended ⟨.unconfigured, 0, 0, 0⟩ := by
  intro last
  obtain ⟨balanced, unconfigured⟩ := accounts_balance
  obtain ⟨origin, -, steps, accounts⟩ :=
    balanced Scenario.reconnecting last ⟨.consumerGone, 3, 2, 13⟩
      (Scenario.reconnecting.reaches_stateAt 100) (by decide +kernel)
  obtain ⟨outcome, -, -⟩ :=
    unconfigured ⟨none, .fixed 5, none, 64⟩ (fun _ => Scenario.reconnecting)
      100 (by simp)
  exact ⟨⟨origin, steps, accounts⟩, by decide +kernel, by decide +kernel,
    outcome⟩

end EventRelay.Session
