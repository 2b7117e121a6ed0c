import EventRelay.Proofs.Session.Refusals
import EventRelay.Proofs.Timing.Delay

namespace EventRelay.Session

/-!
# The retry schedule

Once a wait has begun, the source is called exactly when the wait is over, or
the session ends before, at the first moment at which it must stop.  The wait
depends on the number of waits since the last event that was taken.
-/

open Timing (Milliseconds)

/--
What follows the beginning of a wait: a call when the wait is over, or the end
of the session at the first moment at which it must stop.
-/
inductive Retried
    (scenario : Scenario)
    (start delay taken : Nat) : History → Prop where
  | called {number : Nat} {later : History}
      (quiet :
        ∀ moment, start ≤ moment → moment ≤ start + delay →
          scenario.stopReason? moment taken = none) :
      Retried scenario start delay taken
        (⟨start + delay, .attempted number⟩ ::
          ⟨start + delay, .called⟩ :: later)
  | stopped {time attempts : Nat} {termination : Termination}
      (notBefore : start ≤ time)
      (notAfter : time ≤ start + delay)
      (reason : scenario.stopReason? time taken = some termination)
      (quiet :
        ∀ moment, start ≤ moment → moment < time →
          scenario.stopReason? moment taken = none) :
      Retried scenario start delay taken
        [⟨time, .ended termination attempts taken⟩]

namespace Scenario.Transition

private theorem exists_of_pausing
    (scenario : Scenario)
    {state : State}
    {due : Milliseconds}
    (phase : state.phase = .pausing due) :
    ∃ events next, scenario.Transition state events next := by
  have steps : scenario.step? state = some (scenario.stepPausing state due) := by
    rw [step?, phase]
  obtain ⟨events, transition⟩ := of_step? steps
  exact ⟨events, _, transition⟩

private theorem exists_of_connecting
    (scenario : Scenario)
    {state : State}
    (phase : state.phase = .connecting) :
    ∃ events next, scenario.Transition state events next := by
  have steps : scenario.step? state = some (scenario.stepConnecting state) := by
    rw [step?, phase]
  obtain ⟨events, transition⟩ := of_step? steps
  exact ⟨events, _, transition⟩

/-- A wait ends with the session, or when it is over. -/
theorem of_pausing
    {scenario : Scenario}
    {state next : State}
    {events : List Event}
    {delay : Nat}
    (transition : scenario.Transition state events next)
    (phase : state.phase = .pausing (state.now + delay)) :
    (∃ termination,
        next.phase = .ended termination ∧
          Retried scenario state.now delay state.forwarded
            (events.map (Timed.mk next.now))) ∨
      (events = [] ∧
        next.phase = .connecting ∧
        next.now = state.now + delay ∧
        next.forwarded = state.forwarded ∧
        ∀ moment, state.now ≤ moment → moment ≤ state.now + delay →
          scenario.stopReason? moment state.forwarded = none) := by
  cases transition with
  | @pauseStopped due time termination before wakes =>
      rw [before] at phase
      cases phase
      obtain ⟨notBefore, notAfter, reason, quiet⟩ := wake_eq_stopped wakes
      have now : (state.waitUntil time).now = time :=
        Nat.max_eq_right notBefore
      refine .inl ⟨termination, State.phase_stop _ _, ?_⟩
      rw [State.now_stop, now]
      exact .stopped notBefore (notAfter _ rfl) reason quiet
  | @resumed due time before wakes =>
      rw [before] at phase
      cases phase
      obtain ⟨isDue, quiet⟩ := wake_eq_ready wakes
      cases isDue
      exact .inr ⟨rfl, rfl, Nat.max_eq_right (Nat.le_add_right _ _), rfl,
        quiet⟩
  | _ =>
      simp_all

/-- A session that need not stop calls the source at once. -/
theorem of_connecting
    {scenario : Scenario}
    {state next : State}
    {events : List Event}
    (transition : scenario.Transition state events next)
    (phase : state.phase = .connecting)
    (quiet : scenario.stopReason? state.now state.forwarded = none) :
    next.now = state.now ∧
      events = [.attempted (state.attempts + 1), .called] := by
  cases transition with
  | attemptStopped before wakes =>
      rw [stopReason?_of_stopped_now wakes] at quiet
      cases quiet
  | called connect before wakes scripted =>
      exact ⟨rfl, rfl⟩
  | _ =>
      simp_all

/-- An event of two that is not the first one is the second one. -/
theorem eq_of_split_pair
    {first second event : Event}
    {lead later : List Event}
    (split : lead ++ event :: later = [first, second])
    (differs : first ≠ event) :
    lead = [first] ∧ later = [] := by
  cases lead with
  | nil =>
      exact (differs (List.cons.inj split).1.symm).elim
  | cons head lead =>
      cases lead with
      | nil =>
          simp_all
      | cons =>
          simp at split

/-- What is recorded when a wait begins, and what its length depends on. -/
theorem of_backedOff
    {scenario : Scenario}
    {state next : State}
    {events : List Event}
    {reason : BackoffReason}
    {failures delay : Nat}
    (transition : scenario.Transition state events next)
    (member : .backedOff reason failures delay ∈ events) :
    ∃ cause,
      events = [cause, .backedOff reason failures delay] ∧
        cause.delivery? = none ∧
        cause.isBackoff = false ∧
        failures = nextFailures state ∧
        delay =
          scenario.settings.backoff.delay failures
            (scenario.jitter state.attempts) ∧
        next.phase = .pausing (next.now + delay) ∧
        next.forwarded = state.forwarded := by
  cases transition with
  | refused | readFailed | readEnded | readIdle | tooLarge =>
      simp only [backoffEvent, List.mem_cons, reduceCtorEq, false_or,
        Event.backedOff.injEq, List.not_mem_nil, or_false] at member
      obtain ⟨rfl, rfl, rfl⟩ := member
      exact ⟨_, rfl, rfl, rfl, rfl, rfl, rfl, rfl⟩
  | _ =>
      simp at member

end Scenario.Transition

/-! ## What follows a wait -/

/-- A call, or the end of the session, is still to come. -/
def WillRetry
    (scenario : Scenario)
    (start delay taken : Nat)
    (state : State) : Prop :=
  ∃ later rest,
    Reaches scenario state later ∧
      later.history = state.history ++ rest ∧
      Retried scenario start delay taken rest

namespace Reaches

variable {scenario : Scenario}
variable {first last : State}
variable {start delay : Nat}

/-- From a session that is about to connect, a call comes next. -/
theorem of_connecting
    (reaches : Reaches scenario first last)
    (phase : first.phase = .connecting)
    (now : first.now = start + delay)
    (quiet :
      ∀ moment, start ≤ moment → moment ≤ start + delay →
        scenario.stopReason? moment first.forwarded = none) :
    (∃ rest,
        last.history = first.history ++ rest ∧
          Retried scenario start delay first.forwarded rest) ∨
      (last.history = first.history ∧
        WillRetry scenario start delay first.forwarded last) := by
  have quietNow : scenario.stopReason? first.now first.forwarded = none := by
    rw [now]
    exact quiet _ (Nat.le_add_right _ _) (Nat.le_refl _)
  cases reaches with
  | refl =>
      obtain ⟨events, next, transition⟩ :=
        Scenario.Transition.exists_of_connecting scenario phase
      obtain ⟨sameTime, rfl⟩ := transition.of_connecting phase quietNow
      refine .inr ⟨rfl, next, _, .of_transition transition,
        transition.history, ?_⟩
      rw [sameTime, now]
      exact .called quiet
  | @step _ next _ steps rest =>
      obtain ⟨events, transition⟩ := Scenario.Transition.of_step? steps
      obtain ⟨sameTime, rfl⟩ := transition.of_connecting phase quietNow
      obtain ⟨later, grown⟩ := rest.history_prefix
      have shape :
          last.history =
            first.history ++
              ⟨start + delay, .attempted (first.attempts + 1)⟩ ::
                ⟨start + delay, .called⟩ :: later := by
        rw [← grown, transition.history, sameTime, now, List.append_assoc]
        rfl
      exact .inl ⟨_, shape, .called quiet⟩

/-- From a session that waits, a call or the end comes next. -/
theorem of_pausing
    (reaches : Reaches scenario first last)
    (phase : first.phase = .pausing (first.now + delay)) :
    (∃ rest,
        last.history = first.history ++ rest ∧
          Retried scenario first.now delay first.forwarded rest) ∨
      (last.history = first.history ∧
        WillRetry scenario first.now delay first.forwarded last) := by
  -- The run may have been observed before the wait was over.
  cases reaches with
  | refl =>
      obtain ⟨events, next, transition⟩ :=
        Scenario.Transition.exists_of_pausing scenario phase
      have toNext := of_transition transition
      rcases transition.of_pausing phase with
          ⟨termination, -, retried⟩ |
          ⟨rfl, connecting, now, forwarded, quiet⟩
      · exact .inr ⟨rfl, next, _, toNext, transition.history, retried⟩
      · have same : next.history = first.history := by
          rw [transition.history, List.map_nil, List.append_nil]
        rw [← forwarded] at quiet ⊢
        rcases of_connecting (.refl next) connecting now quiet with
            ⟨rest, grown, retried⟩ | ⟨-, later, rest, toLater, grown, retried⟩
        · exact .inr ⟨rfl, next, rest, toNext, by rw [← same]; exact grown,
            retried⟩
        · exact .inr ⟨rfl, later, rest, toNext.trans toLater,
            by rw [← same]; exact grown, retried⟩
  | @step _ next _ steps rest =>
      obtain ⟨events, transition⟩ := Scenario.Transition.of_step? steps
      rcases transition.of_pausing phase with
          ⟨termination, ended, retried⟩ |
          ⟨rfl, connecting, now, forwarded, quiet⟩
      · rw [rest.eq_of_ended ended]
        exact .inl ⟨_, transition.history, retried⟩
      · have same : next.history = first.history := by
          rw [transition.history, List.map_nil, List.append_nil]
        rw [← forwarded] at quiet ⊢
        rw [← same]
        exact of_connecting rest connecting now quiet

/--
A wait depends on the waits since the last event that was taken.  A call or
the end of the session follows it, or is still to come.
-/
theorem of_backedOff
    {state : State}
    (reaches : Reaches scenario scenario.initial state)
    {before after : History}
    {time failures delay : Nat}
    {reason : BackoffReason}
    (split :
      state.history =
        before ++ ⟨time, .backedOff reason failures delay⟩ :: after) :
    failures = min (before.streak + 1) maxFailures ∧
      (∃ jitter,
        delay = scenario.settings.backoff.delay failures jitter) ∧
      (Retried scenario time delay before.deliveries.length after ∨
        after = [] ∧
          WillRetry scenario time delay before.deliveries.length state) := by
  obtain ⟨origin, next, lead, later, continued, toOrigin, transition,
      fromNext, rfl, beforeShape, afterShape, grown⟩ :=
    reaches.recorded_after_start split (by simp)
  obtain ⟨cause, shape, notTaken, notBackoff, counted, drawn, phase,
      forwarded⟩ :=
    transition.of_backedOff (List.mem_append_right lead List.mem_cons_self)
  have causeDiffers : cause ≠ .backedOff reason failures delay := by
    rintro rfl
    cases notBackoff
  obtain ⟨rfl, rfl⟩ :=
    Scenario.Transition.eq_of_split_pair shape causeDiffers
  rw [List.map_singleton] at beforeShape
  rw [List.map_nil, List.nil_append] at afterShape
  subst afterShape
  -- The cause of the wait, a refusal or a closing, counts as nothing.
  have sameStreak : before.streak = origin.history.streak := by
    rw [beforeShape, History.streak_concat, streakAfter, notTaken, notBackoff]
    rfl
  have sameTaken : next.forwarded = before.deliveries.length := by
    rw [forwarded, toOrigin.forwarded_eq, beforeShape, ← List.map_singleton,
      History.deliveries_append]
    simp [notTaken]
  refine ⟨?_, ⟨_, drawn⟩, ?_⟩
  · rw [counted, Scenario.nextFailures_eq toOrigin.failures_eq, sameStreak]
  · rw [← sameTaken]
    rcases fromNext.of_pausing phase with
        ⟨rest, goesOn, retried⟩ | ⟨same, willRetry⟩
    · rw [grown, List.append_cancel_left_eq] at goesOn
      subst goesOn
      exact .inl retried
    · rw [grown, List.append_right_eq_self] at same
      exact .inr ⟨same, willRetry⟩

end Reaches

/-! ## Between two calls -/

/-- The last event of a history is the wait that a call comes after. -/
inductive Waited (history : History) (due : Milliseconds) : Prop where
  | since {before : History} {time failures delay : Nat}
      {reason : BackoffReason}
      (shape :
        history = before ++ [⟨time, .backedOff reason failures delay⟩])
      (due_eq : due = time + delay)

/-- A session that waits, or is about to connect again, has begun a wait. -/
structure Awaiting (state : State) : Prop where
  pausing :
    ∀ due, state.phase = .pausing due → Waited state.history due
  connecting :
    state.phase = .connecting →
      state.history = [⟨0, .started⟩] ∨ Waited state.history state.now
  notOver :
    ∀ due, state.phase = .pausing due → state.now ≤ due

namespace Scenario.Transition

/-- Every wait is begun, and a session connects again only after a wait. -/
theorem awaiting
    {scenario : Scenario}
    {state next : State}
    {events : List Event}
    (transition : scenario.Transition state events next)
    (before : Awaiting state) :
    Awaiting next := by
  have grown := transition.history
  cases transition with
  | attemptStopped | dialStopped | streamStopped | readStopped
  | deliveryStopped | emitStopped | turnedAway | pauseStopped =>
      constructor <;> simp
  | called | opened | reading | received | offered | drained | accepted =>
      constructor <;> simp
  | dialSilent phase | readSilent phase =>
      constructor <;> simp [State.waitUntil, phase]
  | refused | readFailed | readEnded | readIdle | tooLarge =>
      refine ⟨?_, ?_, ?_⟩
      · rintro due ⟨⟩
        exact .since (grown.trans (List.append_cons _ _ _)) rfl
      · rintro ⟨⟩
      · rintro due ⟨⟩
        exact Nat.le_add_right _ _
  | @resumed due time phase wakes =>
      have now : max state.now due = due :=
        Nat.max_eq_right (before.notOver due phase)
      refine ⟨by simp, fun _ => .inr ?_, by simp⟩
      rw [grown, List.map_nil, List.append_nil]
      change Waited state.history (max state.now due)
      rw [now]
      exact before.pausing due phase

/-- The source is called by a session that is about to connect. -/
theorem of_called
    {scenario : Scenario}
    {state next : State}
    {events : List Event}
    (transition : scenario.Transition state events next)
    (member : .called ∈ events) :
    state.phase = .connecting ∧
      events = [.attempted (state.attempts + 1), .called] ∧
      next.now = state.now := by
  cases transition with
  | called connect phase =>
      exact ⟨phase, rfl, rfl⟩
  | _ =>
      simp [backoffEvent] at member

end Scenario.Transition

namespace Reaches

variable {scenario : Scenario}
variable {state : State}

/-- A reachable state knows the wait it has begun. -/
theorem awaiting (reaches : Reaches scenario scenario.initial state) :
    Awaiting state :=
  reaches.invariant Awaiting Scenario.Transition.awaiting
    { pausing := by rintro due ⟨⟩
      connecting := fun _ => .inl rfl
      notOver := by rintro due ⟨⟩ }

/-- A call follows the start of the session, or a wait that is over. -/
theorem of_called
    (reaches : Reaches scenario scenario.initial state)
    {before after : History}
    {time : Milliseconds}
    (split : state.history = before ++ ⟨time, .called⟩ :: after) :
    ∃ earlier number,
      before = earlier ++ [⟨time, .attempted number⟩] ∧
        (earlier = [⟨0, .started⟩] ∨ Waited earlier time) := by
  obtain ⟨origin, next, lead, later, -, toOrigin, transition, -, rfl,
      beforeShape, -⟩ :=
    reaches.recorded_after_start split (by simp)
  obtain ⟨phase, shape, now⟩ :=
    transition.of_called (List.mem_append_right lead List.mem_cons_self)
  obtain ⟨rfl, rfl⟩ :=
    Scenario.Transition.eq_of_split_pair shape (by simp)
  refine ⟨origin.history, _, beforeShape, ?_⟩
  rw [now]
  exact toOrigin.awaiting.connecting phase

end Reaches

/-- The source is called again no sooner than the least wait allows. -/
theorem Reaches.calls_apart
    {scenario : Scenario}
    {state : State}
    (reaches : Reaches scenario scenario.initial state)
    {before between after : History}
    {first second : Milliseconds}
    (split :
      state.history =
        before ++ ⟨first, .called⟩ :: between ++
          ⟨second, .called⟩ :: after) :
    first + scenario.settings.backoff.leastDelay 1 ≤ second := by
  obtain ⟨earlier, number, shape, waited⟩ := reaches.of_called split
  have member : ⟨first, .called⟩ ∈ earlier := by
    have present :
        ⟨first, .called⟩ ∈ earlier ++ [⟨second, .attempted number⟩] := by
      rw [← shape]
      simp
    simpa using present
  cases waited with
  | inl atStart =>
      rw [atStart] at member
      simp at member
  | inr waited =>
      obtain @⟨since, start, failures, delay, reason, waits, due⟩ := waited
      have history :
          state.history =
            since ++ ⟨start, .backedOff reason failures delay⟩ ::
              ⟨second, .attempted number⟩ :: ⟨second, .called⟩ :: after := by
        rw [split, shape, waits]
        simp
      obtain ⟨counted, ⟨jitter, drawn⟩, -⟩ := reaches.of_backedOff history
      have callMember : ⟨first, .called⟩ ∈ since := by
        rw [waits] at member
        simpa using member
      have notBefore : first ≤ start := by
        have ordered := reaches.chronological.ordered
        rw [history, List.pairwise_append] at ordered
        exact ordered.2.2 _ callMember _ List.mem_cons_self
      have positive : 1 ≤ failures := by
        rw [counted]
        exact Nat.le_min.mpr ⟨Nat.le_add_left _ _, by decide⟩
      calc
        first + scenario.settings.backoff.leastDelay 1
          ≤ start + scenario.settings.backoff.leastDelay failures :=
            Nat.add_le_add notBefore
              (scenario.settings.backoff.leastDelay_mono positive)
        _ ≤ start + delay := by
            rw [drawn]
            exact Nat.add_le_add_left
              (scenario.settings.backoff.leastDelay_le_delay _ _) _
        _ = second :=
            due.symm

/-- Without an event that is taken, failures and waits only grow. -/
private theorem Reaches.failures_grow
    {scenario : Scenario}
    {state : State}
    (reaches : Reaches scenario scenario.initial state)
    {before between after : History}
    {first second failures failuresLater delay delayLater : Nat}
    {reason reasonLater : BackoffReason}
    (split :
      state.history =
        before ++ ⟨first, .backedOff reason failures delay⟩ :: between ++
          ⟨second, .backedOff reasonLater failuresLater delayLater⟩ :: after)
    (untaken : ∀ timed ∈ between, timed.event.delivery? = none) :
    failuresLater =
        min (failures + between.backoffs + 1) maxFailures ∧
      scenario.settings.backoff.leastDelay failures ≤
        scenario.settings.backoff.leastDelay failuresLater := by
  obtain ⟨countedLater, -⟩ := reaches.of_backedOff split
  rw [List.append_assoc, List.cons_append] at split
  obtain ⟨counted, -⟩ := reaches.of_backedOff split
  rw [List.append_cons, History.streak_append_of_untaken untaken,
    History.streak_concat] at countedLater
  have more :
      failuresLater = min (failures + between.backoffs + 1) maxFailures := by
    rw [countedLater, counted]
    change
      min (before.streak + 1 + between.backoffs + 1) maxFailures = _
    omega
  refine ⟨more, scenario.settings.backoff.leastDelay_mono ?_⟩
  have bounded : failures ≤ maxFailures := by
    rw [counted]
    exact Nat.min_le_right _ _
  omega

/-- The waits and the calls of a run so far. -/
structure Schedule (scenario : Scenario) (state : State) : Prop where
  /-- When a wait is over the source is called, unless the session stops. -/
  waits :
    ∀ (before after : History) time reason failures delay,
      state.history =
        before ++ ⟨time, .backedOff reason failures delay⟩ :: after →
      failures = min (before.streak + 1) maxFailures ∧
        (∃ jitter,
          delay = scenario.settings.backoff.delay failures jitter) ∧
        (Retried scenario time delay before.deliveries.length after ∨
          after = [] ∧
            WillRetry scenario time delay before.deliveries.length state)
  /-- Two calls are never closer than the least wait. -/
  apart :
    ∀ (before between after : History) first second,
      state.history =
        before ++ ⟨first, .called⟩ :: between ++
          ⟨second, .called⟩ :: after →
      first + scenario.settings.backoff.leastDelay 1 ≤ second
  /-- Without an event that is taken the waits do not begin anew. -/
  grows :
    ∀ (before between after : History) first second reason reasonLater
        failures failuresLater delay delayLater,
      state.history =
        before ++ ⟨first, .backedOff reason failures delay⟩ :: between ++
          ⟨second, .backedOff reasonLater failuresLater delayLater⟩ ::
            after →
      (∀ timed ∈ between, timed.event.delivery? = none) →
      failuresLater = min (failures + between.backoffs + 1) maxFailures ∧
        scenario.settings.backoff.leastDelay failures ≤
          scenario.settings.backoff.leastDelay failuresLater

/-- Every run keeps to the schedule. -/
theorem Reaches.schedule
    {scenario : Scenario}
    {state : State}
    (reaches : Reaches scenario scenario.initial state) :
    Schedule scenario state where
  waits _ _ _ _ _ _ split :=
    reaches.of_backedOff split
  apart _ _ _ _ _ split :=
    reaches.calls_apart split
  grows _ _ _ _ _ _ _ _ _ _ _ split untaken :=
    reaches.failures_grow split untaken

/--
In every run a wait depends on the number of waits since the last event that
was taken; when it is over the source is called, unless the session had to
stop until then.  So two calls are never closer than the least wait, and a
stream without an event that is taken does not shorten the waits.  Refused
attempts before a stream make one wait each, and one call more, before its
events; and a stream that serves an event does so unless something stops it.
-/
theorem retry_schedule
    {scenario : Scenario}
    {state : State}
    (reaches : Reaches scenario scenario.initial state) :
    Schedule scenario state ∧
      ∀ refusals serving others reads,
        scenario.connects = refusals ++ serving :: others →
        (∀ connect ∈ refusals, connect.Refused) →
        serving.answer = .opened reads →
        (∀ (before after : History) time event,
          state.history = before ++ ⟨time, .accepted event⟩ :: after →
          before.closings = 0 →
          before.backoffs = refusals.length ∧
            before.calls = refusals.length + 1) ∧
          ∀ event delay,
            Serves scenario.settings event
              (.new scenario.settings.maxFrameBytes) reads →
            (∀ moment, scenario.stopReason? moment 0 = none) →
            scenario.consumer.delay 0 = some delay →
            scenario.consumer.takes 0 = true →
            ∃ (last : State) (before : History) (time : Milliseconds),
              Reaches scenario scenario.initial last ∧
                last.history = before ++ [⟨time, .accepted event⟩] ∧
                before.deliveries = [] ∧
                before.backoffs = refusals.length ∧
                before.calls = refusals.length + 1 := by
  refine ⟨reaches.schedule, ?_⟩
  intro refusals serving others reads connects refused opens
  have opensAfter :
      OpensAfter reads refusals.length scenario.connects := by
    rw [connects]
    exact .of_append refused opens
  constructor
  · intro before after time event split unclosed
    exact reaches.counts_before_event opensAfter split unclosed
  · intro event delay serves quiet patient takes
    obtain ⟨emitting, last, toEmitting, forwarded, backoffs, calls,
        transition⟩ :=
      Scenario.exists_first_event opensAfter serves quiet patient takes
    have untaken : emitting.history.deliveries = [] := by
      rw [toEmitting.forwarded_eq] at forwarded
      exact List.eq_nil_of_length_eq_zero forwarded
    exact ⟨last, emitting.history, last.now,
      toEmitting.trans (.of_transition transition), transition.history,
      untaken, backoffs, calls⟩

/-- A refusal, a stream that ends within an event, and a second stream. -/
theorem retry_schedule_of_reconnecting :
    let scenario := Scenario.reconnecting
    let state := scenario.stateAt 100
    Reaches scenario scenario.initial state ∧
      Schedule scenario state ∧
      state.history.calls = 3 ∧
      state.history.backoffs = 2 ∧
      ∃ (last : State) (before : History) (time : Milliseconds),
        Reaches scenario scenario.initial last ∧
          last.history = before ++ [⟨time, .accepted ⟨"message", "a"⟩⟩] ∧
          before.deliveries = [] ∧
          before.backoffs = 1 ∧
          before.calls = 2 := by
  intro scenario state
  have reaches := scenario.reaches_stateAt 100
  obtain ⟨schedule, served⟩ := retry_schedule reaches
  have refused :
      ∀ connect ∈ [TimedConnect.badGateway], connect.Refused := by
    intro connect member
    exact ⟨_, by rw [List.mem_singleton.mp member]; rfl⟩
  obtain ⟨-, serves⟩ := served [.badGateway] _ _ _ rfl refused rfl
  have brings :
      Serves scenario.settings ⟨"message", "a"⟩
        (.new scenario.settings.maxFrameBytes)
        [⟨0, .chunk (Text.Utf8.bytesOf "data: a\n\ndata")⟩] :=
    .now ⟨rfl, fun _ _ => Nat.zero_le _⟩
      (show _ = (some (.ofPayload "a"), ⟨[100, 97, 116, 97], 0, 64⟩) by
        decide +kernel)
      rfl
  exact ⟨reaches, schedule, by decide +kernel, by decide +kernel,
    serves _ 0 brings (fun _ => rfl) rfl rfl⟩

end EventRelay.Session
