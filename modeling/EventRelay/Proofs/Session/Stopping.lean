import EventRelay.Proofs.Session.Hearing

namespace EventRelay.Session

/-!
# Stops

A signal that is heard ends the session at the moment at which it is given.
From then on nothing new is begun, and an open stream is closed once.
-/

open Timing (Milliseconds)

namespace Scenario

/-- A session that runs and takes no step before a moment that is to come. -/
structure StandsAt
    (scenario : Scenario)
    (state : State)
    (moment : Milliseconds) : Prop where
  running : ∀ termination, state.phase ≠ .ended termination
  notPast : state.now ≤ moment
  nothingBefore :
    ∀ next, scenario.step? state = some next → moment ≤ next.now

/-- A session that runs and takes no step waits for what never comes. -/
theorem never_of_stuck
    {scenario : Scenario}
    {state : State}
    (stuck : scenario.step? state = none)
    (running : ∀ termination, state.phase ≠ .ended termination) :
    state.due? = none ∧ ∀ moment, scenario.heard? state moment = none := by
  unfold step? at stuck
  split at stuck
  · cases stuck
  · next due answer phase =>
      unfold stepDialing at stuck
      split at stuck
      · cases stuck
      · cases stuck
      · next wakes =>
          obtain ⟨notDue, noStop⟩ := wakeAt_eq_never wakes
          refine ⟨by rw [State.due?, phase, notDue], fun moment => ?_⟩
          simp [heard?, phase, Phase.isDelivering,
            stopTime?_eq_none noStop moment]
  · cases stuck
  · next due limit answer reads phase =>
      simp only [stepReading] at stuck
      split at stuck
      · cases stuck
      · split at stuck <;> cases stuck
      · next wakes =>
          obtain ⟨notDue, noStop⟩ := wakeAt_eq_never wakes
          refine ⟨by rw [State.due?, phase]; exact notDue, fun moment => ?_⟩
          simp [heard?, phase, Phase.isDelivering,
            stopTime?_eq_none noStop moment]
  · cases stuck
  · next due event reads phase =>
      unfold stepEmitting at stuck
      split at stuck
      · cases stuck
      · cases stuck
      · next wakes =>
          obtain ⟨notDue, noStop⟩ := wakeAt_eq_never wakes
          refine ⟨by rw [State.due?, phase, notDue], fun moment => ?_⟩
          have never : scenario.isCancelled moment state.forwarded = false :=
            signalTime?_eq_none (Option.map_eq_none_iff.mp noStop) moment
          simp [heard?, phase, Phase.isDelivering, never]
  · cases stuck
  · next termination phase =>
      exact (running termination phase).elim

namespace StandsAt

variable {scenario : Scenario}
variable {state : State}
variable {moment : Milliseconds}
variable {termination : Termination}

/-- A signal that is heard ends the session, or what is left is dealt with. -/
theorem exists_transition
    (stands : StandsAt scenario state moment)
    (onTime : OnTime state)
    (heard : scenario.heard? state moment = some termination) :
    ∃ events next,
      scenario.Transition state events next ∧
        next.now = moment ∧
        (∀ event ∈ events, event.windsDown = true) ∧
        (next.phase = .ended termination ∨
          state.phase.isDelivering = true ∧
            next.phase.isDelivering = false ∧
            next.forwarded = state.forwarded ∧
            ∀ termination, next.phase ≠ .ended termination) := by
  cases steps : scenario.step? state with
  | none =>
      rw [(never_of_stuck steps stands.running).2 moment] at heard
      cases heard
  | some next =>
      obtain ⟨events, transition⟩ := Transition.of_step? steps
      obtain ⟨quiet, ending⟩ := transition.awaited onTime
      have notBefore : moment ≤ next.now := stands.nothingBefore next steps
      have now : next.now = moment := by
        refine Nat.le_antisymm (Nat.le_of_not_lt fun before => ?_) notBefore
        rw [quiet moment stands.notPast before] at heard
        cases heard
      refine ⟨events, next, transition, now, ?_⟩
      cases ending with
      | stopped phase reason calm =>
          rw [now, heard] at reason
          cases reason
          exact ⟨calm, .inl phase⟩
      | ready due unheard =>
          rw [now, heard] at unheard
          cases unheard
      | drained phase sameTime sameTaken goesOn running calm =>
          exact ⟨calm, .inr ⟨by rw [phase]; rfl, goesOn, sameTaken, running⟩⟩

end StandsAt

end Scenario

/-- With nothing new begun, a stream is closed once if it is left open. -/
private theorem count_closed_of_calm
    {before after : Bool}
    {events : List Event}
    (inOrder : streamAfterAll? before events = some after)
    (calm : ∀ event ∈ events, event.windsDown = true) :
    events.count .closed + after.toNat = before.toNat := by
  induction events generalizing before with
  | nil =>
      cases inOrder
      exact Nat.zero_add _
  | cons event later inductionHypothesis =>
      obtain ⟨next, first, rest⟩ := Option.bind_eq_some_iff.mp inOrder
      obtain ⟨calmFirst, calmLater⟩ := List.forall_mem_cons.mp calm
      have counted := inductionHypothesis rest calmLater
      rw [List.count_cons, Nat.add_right_comm, counted]
      cases event <;>
        simp_all [streamAfter?, Event.windsDown, Event.usesStream]

/--
A session ends at a moment: from then on it begins nothing new, and it closes
its stream once if it is open.
-/
inductive EndsAt
    (scenario : Scenario)
    (state : State)
    (moment : Milliseconds)
    (termination : Termination) : Prop where
  | of_events {last : State} {events : List Event}
      (reaches : Reaches scenario state last)
      (phase : last.phase = .ended termination)
      (now : last.now = moment)
      (history :
        last.history = state.history ++ events.map (Timed.mk moment))
      (calm : ∀ event ∈ events, event.windsDown = true)
      (closes : events.count .closed = state.phase.isOpen.toNat)

section

variable {scenario : Scenario}
variable {state next : State}
variable {events : List Event}
variable {moment : Milliseconds}
variable {termination : Termination}

/-- A session that ends after a calm step ends. -/
theorem EndsAt.of_calm_step
    (transition : scenario.Transition state events next)
    (now : next.now = moment)
    (calm : ∀ event ∈ events, event.windsDown = true)
    (ends : EndsAt scenario next moment termination) :
    EndsAt scenario state moment termination := by
  cases ends with
  | @of_events last more toLast phase lastNow history calmLater closes =>
      have grown : last.history =
          state.history ++ (events ++ more).map (Timed.mk moment) := by
        rw [history, transition.history, now, List.map_append,
          List.append_assoc]
      refine .of_events (.step transition.step?_eq toLast) phase lastNow grown
        ?_ ?_
      · intro event member
        exact (List.mem_append.mp member).elim (calm event) (calmLater event)
      · rw [List.count_append, closes]
        exact count_closed_of_calm transition.streamAfterAll?_eq calm

/-- A calm step may be the last one. -/
theorem EndsAt.of_last_step
    (transition : scenario.Transition state events next)
    (now : next.now = moment)
    (calm : ∀ event ∈ events, event.windsDown = true)
    (phase : next.phase = .ended termination) :
    EndsAt scenario state moment termination := by
  have unchanged :
      next.history = next.history ++ ([] : List Event).map (Timed.mk moment) :=
    (List.append_nil next.history).symm
  exact .of_calm_step transition now calm
    (.of_events (.refl next) phase now unchanged (List.forall_mem_nil _)
      (by rw [phase]; rfl))

namespace Scenario.StandsAt

/-- A session that runs stands where it is. -/
theorem present
    (running : ∀ termination, state.phase ≠ .ended termination) :
    scenario.StandsAt state state.now where
  running := running
  notPast := Nat.le_refl _
  nothingBefore := by
    intro next steps
    obtain ⟨events, transition⟩ := Transition.of_step? steps
    exact transition.now_le

/-- A session stands at the moment to which its next step leads. -/
theorem of_step
    (comes : (scenario.step? state).map State.now = some moment) :
    scenario.StandsAt state moment := by
  obtain ⟨next, steps, rfl⟩ := Option.map_eq_some_iff.mp comes
  obtain ⟨events, transition⟩ := Transition.of_step? steps
  refine ⟨transition.running, transition.now_le, ?_⟩
  intro other stepsOther
  rw [steps] at stepsOther
  cases stepsOther
  exact Nat.le_refl _

/-- A signal ends a session that delivers no event when it is given. -/
theorem endsAt_of_waiting
    (stands : scenario.StandsAt state moment)
    (onTime : OnTime state)
    (waits : state.phase.isDelivering = false)
    (reason :
      scenario.stopReason? moment state.forwarded = some termination) :
    EndsAt scenario state moment termination := by
  have heard : scenario.heard? state moment = some termination := by
    rw [heard?, waits]
    exact reason
  obtain ⟨events, next, transition, now, calm, ends⟩ :=
    stands.exists_transition onTime heard
  rcases ends with phase | ⟨delivers, -⟩
  · exact .of_last_step transition now calm phase
  · rw [waits] at delivers
    cases delivers

/-- A signal that is heard ends the session when it is given. -/
theorem endsAt
    (stands : scenario.StandsAt state moment)
    (onTime : OnTime state)
    (heard : scenario.heard? state moment = some termination) :
    EndsAt scenario state moment termination := by
  obtain ⟨events, next, transition, now, calm, ends⟩ :=
    stands.exists_transition onTime heard
  rcases ends with phase | ⟨-, waits, sameTaken, running⟩
  · exact .of_last_step transition now calm phase
  · -- The session has left the delivery, so now it hears every signal.
    have reason :
        scenario.stopReason? next.now next.forwarded = some termination := by
      rw [now, sameTaken]
      exact stopReason?_of_heard? heard
    have endsNext : EndsAt scenario next moment termination := by
      rw [← now]
      exact (present running).endsAt_of_waiting (transition.onTime onTime)
        waits reason
    exact .of_calm_step transition now calm endsNext

end Scenario.StandsAt

end

namespace History

/-- How many events had been taken by a moment. -/
def takenBy (history : History) (moment : Milliseconds) : Nat :=
  (deliveries (history.filter (·.time ≤ moment))).length

/-- What happens later does not change what was taken by a moment. -/
theorem takenBy_append
    (history : History)
    {now moment : Milliseconds}
    (events : List Event)
    (before : moment < now) :
    takenBy (history ++ events.map (Timed.mk now)) moment =
      history.takenBy moment := by
  have none : (events.map (Timed.mk now)).filter (·.time ≤ moment) = [] := by
    simp [List.filter_eq_nil_iff, before]
  rw [takenBy, List.filter_append, none, List.append_nil, takenBy]

/-- By a moment after all that happened, every event had been taken. -/
theorem takenBy_of_past
    {history : History}
    {moment : Milliseconds}
    (past : ∀ timed ∈ history, timed.time ≤ moment) :
    history.takenBy moment = history.deliveries.length := by
  have all : history.filter (·.time ≤ moment) = history := by
    simpa [List.filter_eq_self] using past
  rw [takenBy, all]

end History

/-- Whether a session with a history was cancelled by a moment. -/
def Scenario.cancelledBy
    (scenario : Scenario)
    (history : History)
    (moment : Milliseconds) : Bool :=
  scenario.isCancelled moment (history.takenBy moment)

namespace Reaches

variable {scenario : Scenario}
variable {state : State}

theorem onTime (reaches : Reaches scenario scenario.initial state) :
    OnTime state :=
  reaches.invariant OnTime Scenario.Transition.onTime
    (by simp [OnTime, State.due?, Scenario.initial, State.record])

/--
What a run records at a time was recorded by a step that ended then, and the
events taken before that were those counted when the step began.
-/
theorem recorded_by_step
    (reaches : Reaches scenario scenario.initial state)
    {before after : History}
    {time : Milliseconds}
    {event : Event}
    (split : state.history = before ++ ⟨time, event⟩ :: after) :
    event = .started ∨
      ∃ origin next events,
        Reaches scenario scenario.initial origin ∧
          scenario.Transition origin events next ∧
          event ∈ events ∧
          time = next.now ∧
          before.deliveries.length = origin.forwarded := by
  by_cases start : event = .started
  · exact .inl start
  · obtain ⟨origin, next, earlier, later, -, toOrigin, transition, -, now,
        shape, -⟩ :=
      reaches.recorded_after_start split start
    refine .inr ⟨origin, next, _, toOrigin, transition,
      List.mem_append_right earlier List.mem_cons_self, now, ?_⟩
    rw [shape, transition.taken_before rfl, toOrigin.forwarded_eq]

/-- No session goes on after the moment at which it is cancelled. -/
theorem not_cancelledBy
    (reaches : Reaches scenario scenario.initial state) :
    ∀ moment < state.now,
      scenario.cancelledBy state.history moment = false := by
  refine reaches.invariant_of_reachable
    (fun state => ∀ moment < state.now,
      scenario.cancelledBy state.history moment = false)
    ?_ (by rintro moment ⟨⟩)
  intro state events next reaches transition earlier moment before
  rw [Scenario.cancelledBy, transition.history,
    History.takenBy_append _ _ before]
  by_cases past : moment < state.now
  · exact earlier moment past
  · -- Between the two states the session waited and heard no cancellation.
    have notBefore : state.now ≤ moment := Nat.le_of_not_lt past
    have taken : state.history.takenBy moment = state.forwarded := by
      rw [reaches.forwarded_eq, History.takenBy_of_past]
      intro timed member
      exact Nat.le_trans (reaches.chronological.past timed member) notBefore
    obtain ⟨quiet, -⟩ := transition.awaited reaches.onTime
    rw [taken]
    exact Scenario.not_cancelled_of_unheard (quiet moment notBefore before)

end Reaches

end EventRelay.Session
