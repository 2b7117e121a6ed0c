import EventRelay.Proofs.Session.Delivery
import EventRelay.Proofs.Session.Measuring
import EventRelay.Proofs.Session.Retry

namespace EventRelay.Session

/-!
# Causes of waits

A session waits before it connects again for a reason: an attempt was refused,
or a stream was left.  Each refusal and each stream that was left makes one
wait, and every stream but the one at which the session ends is left.
-/

open Source (ConnectError)
open Timing (Milliseconds)

namespace Connection

/-- How many connections were left for one of some reasons. -/
def leavings
    (connections : List Connection)
    (chosen : BackoffReason → Bool) : Nat :=
  connections.countP (·.left.any chosen)

/-- Only a wait after a stream changes why a connection was left. -/
private theorem leavings_afterEvent
    (connections : List Connection)
    {event : Event}
    (calm : event.backoffReason? = none)
    (chosen : BackoffReason → Bool) :
    leavings (afterEvent connections event) chosen =
      leavings connections chosen := by
  cases event with
  | backedOff reason failures delay =>
      cases calm
  | _ =>
      cases connections <;> simp [afterEvent, leavings, List.countP_cons]

/-- Events that are no backoff leave no connection for a reason. -/
private theorem leavings_foldl
    (connections : List Connection)
    {events : List Event}
    (calm : ∀ event ∈ events, event.backoffReason? = none)
    (chosen : BackoffReason → Bool) :
    leavings (events.foldl afterEvent connections) chosen =
      leavings connections chosen := by
  induction events generalizing connections with
  | nil =>
      rfl
  | cons event later inductionHypothesis =>
      obtain ⟨first, rest⟩ := List.forall_mem_cons.mp calm
      rw [List.foldl_cons, inductionHypothesis _ rest,
        leavings_afterEvent connections first]

end Connection

namespace History

/-- How often a stream was left for one of some reasons, to connect again. -/
def leavings (history : History) (chosen : BackoffReason → Bool) : Nat :=
  Connection.leavings history.connections chosen

private theorem waits_append
    (history : History)
    (now : Milliseconds)
    (events : List Event)
    (chosen : BackoffReason → Bool) :
    waits (history ++ events.map (Timed.mk now)) chosen =
      history.waits chosen +
        events.countP (·.backoffReason?.any chosen) :=
  history.countP_append now events (·.backoffReason?.any chosen)

private theorem refusals_append
    (history : History)
    (now : Milliseconds)
    (events : List Event)
    (chosen : ConnectError → Bool) :
    refusals (history ++ events.map (Timed.mk now)) chosen =
      history.refusals chosen +
        events.countP (·.refusal?.any chosen) :=
  history.countP_append now events (·.refusal?.any chosen)

/-- Backoffs are waits for any reason. -/
theorem backoffs_eq_waits (history : History) :
    history.backoffs = history.waits fun _ => true := by
  refine List.countP_congr fun timed _ => ?_
  cases timed.event <;> simp [Event.isBackoff, Event.backoffReason?]

end History

namespace Scenario.Transition

variable {scenario : Scenario}
variable {state next : State}
variable {events : List Event}

/-- Each wait of a transition has its cause in that transition. -/
theorem causes
    (transition : scenario.Transition state events next)
    {connections : List Connection}
    (accounted : Accounted state connections)
    (chosen : BackoffReason → Bool) :
    events.countP (·.backoffReason?.any chosen) +
        Connection.leavings connections chosen =
      events.countP (·.refusal?.any (chosen ∘ .connect)) +
        Connection.leavings (events.foldl Connection.afterEvent connections)
          chosen := by
  -- A refusal is the cause of its own wait.  The end of a stream leaves the
  -- latest connection, which was open and so had not been left before.
  cases transition with
  | refused phase =>
      cases connections <;>
        simp [Connection.leavings, Connection.afterEvent, backoffEvent,
          Event.backoffReason?, Event.refusal?, List.countP_cons,
          Nat.add_comm]
  | readFailed phase | readEnded phase | readIdle _ phase | tooLarge phase =>
      obtain ⟨latest, earlier, rfl, relaying, -⟩ :=
        accounted.relaying_of_open (by rw [phase]; rfl)
      simp [Connection.leavings, Connection.afterEvent, backoffEvent,
        Event.backoffReason?, Event.refusal?, List.countP_cons,
        relaying.notLeft, Nat.add_comm]
  | _ =>
      rw [Connection.leavings_foldl connections (by simp [Event.backoffReason?])]
      simp [Event.backoffReason?, Event.refusal?]

end Scenario.Transition

namespace Connection

/-- Each opening begins a connection. -/
private theorem length_afterEvent (connections : List Connection) (event : Event) :
    (afterEvent connections event).length =
      connections.length + event.switch?.toList.count true := by
  cases event with
  | backedOff reason failures delay =>
      cases connections <;> cases reason <;> rfl
  | _ =>
      cases connections <;> rfl

private theorem length_foldl_afterEvent
    (connections : List Connection)
    (events : List Event) :
    (events.foldl afterEvent connections).length =
      connections.length + (events.filterMap Event.switch?).count true := by
  induction events generalizing connections with
  | nil =>
      rfl
  | cons event later inductionHypothesis =>
      rw [List.foldl_cons, inductionHypothesis, length_afterEvent,
        Nat.add_assoc, List.filterMap_cons, ← List.count_append]
      cases event.switch? <;> rfl

/-- All connections that are finished were left. -/
private theorem leavings_of_finished
    {connections : List Connection}
    (finished : ∀ connection ∈ connections, connection.Finished) :
    leavings connections (fun _ => true) = connections.length := by
  refine List.countP_eq_length.mpr fun connection member => ?_
  have left := (finished connection member).left
  cases reason : connection.left with
  | none =>
      exact (left reason).elim
  | some reason =>
      rfl

end Connection

/-- All streams but the one that is open were left. -/
theorem Accounted.leavings_eq
    {state : State}
    {connections : List Connection}
    (accounted : Accounted state connections)
    (running : ∀ termination, state.phase ≠ .ended termination) :
    Connection.leavings connections (fun _ => true) +
        state.phase.isOpen.toNat =
      connections.length := by
  cases accounted with
  | between closed finished =>
      rw [closed, Connection.leavings_of_finished finished]
      rfl
  | during isOpen relaying finished =>
      rw [isOpen, Connection.leavings, List.countP_cons_of_neg,
        List.length_cons]
      · exact congrArg (· + 1) (Connection.leavings_of_finished finished)
      · simp [relaying.notLeft]
  | stopped phase =>
      exact (running _ phase).elim

namespace History

/-- How often connections were left can be counted event by event. -/
private theorem leavings_eq_foldl
    (history : History)
    (chosen : BackoffReason → Bool) :
    history.leavings chosen =
      Connection.leavings (history.events.foldl Connection.afterEvent [])
        chosen :=
  List.countP_reverse

end History

/-- What a session waits for, and what is recorded of that before the wait. -/
inductive Cause (scenario : Scenario) (state : State) :
    Event → BackoffReason → Prop where
  | refused {due : Option Milliseconds} {error : ConnectError}
      (phase : state.phase = .dialing due (.refused error)) :
      Cause scenario state (.refused error) (.connect error)
  | failed {due limit : Option Milliseconds} {reason : String}
      {reads : List TimedRead}
      (phase : state.phase = .reading due limit (.failed reason) reads)
      (inTime : Scenario.comesInTime due limit = true) :
      Cause scenario state .closed (.read (.transport reason))
  | ended {due limit : Option Milliseconds} {reads : List TimedRead}
      (phase : state.phase = .reading due limit .ended reads)
      (inTime : Scenario.comesInTime due limit = true) :
      Cause scenario state .closed .endOfStream
  | idle {due limit : Option Milliseconds} {answer : ReadAnswer}
      {reads : List TimedRead}
      (phase : state.phase = .reading due limit answer reads)
      (late : Scenario.comesInTime due limit = false) :
      Cause scenario state .closed
        (.read (.idle (scenario.settings.idleLimit.getD 0)))
  | tooLarge {reads : List TimedRead} {decoder : Decoder}
      {error : FrameTooLarge}
      (phase : state.phase = .delivering reads)
      (next : state.decoder.next = (none, decoder))
      (exceeds : decoder.checkCapacity = .error error) :
      Cause scenario state .closed (.read (.tooLarge error))

/-- A transition that begins a wait has a cause. -/
theorem Scenario.Transition.cause
    {scenario : Scenario}
    {state next : State}
    {events : List Event}
    (transition : scenario.Transition state events next)
    {event : Event}
    (member : event ∈ events)
    (waits : event.isBackoff = true) :
    ∃ record reason,
      events = [record, scenario.backoffEvent state reason] ∧
        record.isBackoff = false ∧
        Cause scenario state record reason := by
  cases transition with
  | refused phase =>
      exact ⟨_, _, rfl, rfl, .refused phase⟩
  | readFailed phase inTime =>
      exact ⟨_, _, rfl, rfl, .failed phase inTime⟩
  | readEnded phase inTime =>
      exact ⟨_, _, rfl, rfl, .ended phase inTime⟩
  | readIdle error phase late wakes idle =>
      subst idle
      exact ⟨_, _, rfl, rfl, .idle phase late⟩
  | tooLarge phase next exceeds =>
      exact ⟨_, _, rfl, rfl, .tooLarge phase next exceeds⟩
  | _ =>
      cases event <;> simp_all [Event.isBackoff]

namespace Reaches

variable {scenario : Scenario}
variable {state : State}

/-- Each wait has its cause. -/
theorem waits_eq
    (reaches : Reaches scenario scenario.initial state)
    (chosen : BackoffReason → Bool) :
    state.history.waits chosen =
      state.history.refusals (chosen ∘ .connect) +
        state.history.leavings chosen := by
  refine reaches.invariant_of_reachable
    (fun state =>
      state.history.waits chosen =
        state.history.refusals (chosen ∘ .connect) +
          state.history.leavings chosen)
    ?_ rfl
  intro state events next reaches transition before
  have caused := transition.causes reaches.divided.accounted chosen
  rw [History.leavings_eq_foldl] at before ⊢
  rw [transition.history_events, List.foldl_append, transition.history,
    History.waits_append, History.refusals_append]
  omega

/-- Before a wait its cause was recorded, which is what the session met. -/
theorem cause
    (reaches : Reaches scenario scenario.initial state)
    {before after : History}
    {time failures delay : Nat}
    {reason : BackoffReason}
    (split :
      state.history =
        before ++ ⟨time, .backedOff reason failures delay⟩ :: after) :
    ∃ origin next record,
      Reaches scenario scenario.initial origin ∧
        scenario.step? origin = some next ∧
        before = origin.history ++ [⟨time, record⟩] ∧
        Cause scenario origin record reason := by
  obtain ⟨origin, next, lead, later, -, toOrigin, transition, -, rfl,
      beforeShape, -⟩ :=
    reaches.recorded_after_start split (by simp)
  obtain ⟨record, met, shape, noWait, cause⟩ :=
    transition.cause (List.mem_append_right lead List.mem_cons_self) rfl
  have differs : record ≠ .backedOff reason failures delay := by
    rintro rfl
    cases noWait
  obtain ⟨rfl, rfl⟩ := Scenario.Transition.eq_of_split_pair shape differs
  simp only [List.singleton_append, List.cons.injEq, Scenario.backoffEvent,
    Event.backedOff.injEq, true_and, and_true] at shape
  obtain ⟨rfl, -⟩ := shape
  exact ⟨origin, next, record, toOrigin, transition.step?_eq, beforeShape,
    cause⟩

/-- A session that ends while a stream is open leaves all streams but that. -/
theorem leavings_eq
    {origin : State}
    {events : List Event}
    {termination : Termination}
    (reaches : Reaches scenario scenario.initial origin)
    (transition : scenario.Transition origin events state)
    (phase : state.phase = .ended termination) :
    state.history.leavings (fun _ => true) + origin.phase.isOpen.toNat =
      state.history.openings := by
  obtain ⟨cause, attempts, forwarded, shape, causes⟩ :=
    transition.of_ended phase
  have calm :
      (∀ event ∈ events, event.backoffReason? = none) ∧
        (events.filterMap Event.switch?).count true = 0 := by
    subst shape
    rcases causes with rfl | rfl | ⟨event, rfl⟩ <;>
      cases origin.phase.isOpen <;>
        exact ⟨by simp [Event.backoffReason?], rfl⟩
  rw [History.leavings_eq_foldl, transition.history_events, List.foldl_append,
    Connection.leavings_foldl _ calm.1,
    reaches.divided.accounted.leavings_eq transition.running,
    Connection.length_foldl_afterEvent, transition.history,
    History.openings_append, calm.2, History.openings, History.switches,
    History.events, List.filterMap_map]
  exact Nat.zero_add _

end Reaches

end EventRelay.Session
