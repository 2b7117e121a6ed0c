import EventRelay.Proofs.Session.Reachable

namespace EventRelay.Session

/-!
# What is seen from outside

That a read begins and that bytes come concerns nobody but the session itself.
Everything else that happens is seen from outside: by the source, by the
consumer, in the metrics and in the log.  Two states look alike if nothing
that is seen from outside, and no counter, tells them apart.  Whatever a
session does next to one of two such states keeps them alike when it is done
to the other as well.
-/

open Timing (Milliseconds)

/-- Whether an event is a part of reading. -/
def Event.isInput : Event → Bool
  | .reading =>
      true
  | .received _ =>
      true
  | _ =>
      false

namespace History

/-- The events that are seen from outside. -/
def outward (history : History) : History :=
  history.filter (!·.event.isInput)

/-- What is seen of two parts is what is seen of each, in order. -/
theorem outward_append (earlier later : History) :
    (earlier ++ later).outward = earlier.outward ++ later.outward :=
  List.filter_append earlier later

/-- A view that does not show reading is one of what is seen from outside. -/
private theorem filterMap_outward
    {Item : Type}
    {view : Timed → Option Item}
    (blind : ∀ timed, timed.event.isInput = true → view timed = none)
    (history : History) :
    history.outward.filterMap view = history.filterMap view := by
  induction history with
  | nil =>
      rfl
  | cons timed later inductionHypothesis =>
      cases input : timed.event.isInput with
      | true =>
          have hidden : outward (timed :: later) = outward later :=
            List.filter_cons_of_neg (by simp [input])
          rw [hidden, List.filterMap_cons_none (blind timed input),
            inductionHypothesis]
      | false =>
          have shown : outward (timed :: later) = timed :: outward later :=
            List.filter_cons_of_pos (by simp [input])
          rw [shown, List.filterMap_cons, List.filterMap_cons,
            inductionHypothesis]

section

variable {history other : History}
variable (outward : history.outward = other.outward)

include outward

/-- A view that does not show reading shows the same of both histories. -/
theorem filterMap_eq
    {Item : Type}
    {view : Timed → Option Item}
    (blind : ∀ timed, timed.event.isInput = true → view timed = none) :
    history.filterMap view = other.filterMap view := by
  rw [← filterMap_outward blind history, outward, filterMap_outward blind]

/-- The visible steps are seen from outside. -/
theorem trace_eq : history.trace = other.trace := by
  refine filterMap_eq outward ?_
  rintro ⟨time, event⟩ input
  cases event <;> cases input <;> rfl

/-- What the consumer took is seen from outside. -/
theorem deliveries_eq : history.deliveries = other.deliveries := by
  refine filterMap_eq outward ?_
  rintro ⟨time, event⟩ input
  cases event <;> cases input <;> rfl

/-- What is measured is seen from outside. -/
theorem metrics_eq : history.metrics = other.metrics := by
  have measured :
      history.filterMap (·.event.measure?) =
        other.filterMap (·.event.measure?) := by
    refine filterMap_eq outward ?_
    rintro ⟨time, event⟩ input
    cases event <;> cases input <;> rfl
  rw [metrics, measureOnto, measured]
  rfl

/-- What is logged is seen from outside. -/
theorem log_eq (url : Url) : history.log url = other.log url := by
  refine filterMap_eq outward ?_
  rintro ⟨time, event⟩ input
  cases event <;> cases input <;> rfl

end

end History

namespace State

@[simp] theorem connects_stop (state : State) (termination : Termination) :
    (state.stop termination).connects = state.connects := by
  rw [stop]
  split <;> rfl

@[simp] theorem decoder_stop (state : State) (termination : Termination) :
    (state.stop termination).decoder = state.decoder := by
  rw [stop]
  split <;> rfl

/-- Nothing seen from outside, and no counter, tells two states apart. -/
structure Alike (first second : State) : Prop where
  now : first.now = second.now
  failures : first.failures = second.failures
  attempts : first.attempts = second.attempts
  forwarded : first.forwarded = second.forwarded
  limit : first.decoder.limit = second.decoder.limit
  outward : first.history.outward = second.history.outward

namespace Alike

theorem refl (state : State) : Alike state state :=
  ⟨rfl, rfl, rfl, rfl, rfl, rfl⟩

/-- States alike to a third through a second are alike. -/
theorem trans
    {first second third : State}
    (before : Alike first second)
    (after : Alike second third) :
    Alike first third where
  now := before.now.trans after.now
  failures := before.failures.trans after.failures
  attempts := before.attempts.trans after.attempts
  forwarded := before.forwarded.trans after.forwarded
  limit := before.limit.trans after.limit
  outward := before.outward.trans after.outward

/-- A phase is not seen from outside. -/
theorem entered (state : State) (phase : Phase) :
    Alike state (state.enter phase) :=
  ⟨rfl, rfl, rfl, rfl, rfl, rfl⟩

/-- The bytes that are held are not seen from outside. -/
theorem decoding
    (state : State)
    (decoder : Decoder)
    (limit : decoder.limit = state.decoder.limit) :
    Alike state { state with decoder } :=
  ⟨rfl, rfl, rfl, rfl, limit.symm, rfl⟩

/-- Reading is not seen from outside. -/
theorem recorded
    (state : State)
    {event : Event}
    (input : event.isInput = true) :
    Alike state (state.record event) where
  now := rfl
  failures := rfl
  attempts := rfl
  forwarded := rfl
  limit := rfl
  outward := by
    rw [history_record, History.outward_append]
    simp [History.outward, input]

/-- Waiting for a moment that has passed changes nothing seen. -/
theorem waited
    (state : State)
    {time : Milliseconds}
    (notLater : time ≤ state.now) :
    Alike state (state.waitUntil time) :=
  ⟨(Nat.max_eq_left notLater).symm, rfl, rfl, rfl, rfl, rfl⟩

section

variable {first second : State}
variable (alike : Alike first second)

include alike

theorem symm : Alike second first :=
  ⟨alike.now.symm, alike.failures.symm, alike.attempts.symm,
    alike.forwarded.symm, alike.limit.symm, alike.outward.symm⟩

theorem enter (phase other : Phase) :
    Alike (first.enter phase) (second.enter other) :=
  ⟨alike.now, alike.failures, alike.attempts, alike.forwarded, alike.limit,
    alike.outward⟩

/-- Recording the same event keeps states alike. -/
theorem record (event : Event) :
    Alike (first.record event) (second.record event) where
  now := alike.now
  failures := alike.failures
  attempts := alike.attempts
  forwarded := alike.forwarded
  limit := alike.limit
  outward := by
    rw [history_record, history_record, History.outward_append,
      History.outward_append, alike.outward, alike.now]

/-- Waiting until the same moment keeps states alike. -/
theorem waitUntil (time : Milliseconds) :
    Alike (first.waitUntil time) (second.waitUntil time) :=
  ⟨congrArg (max · time) alike.now, alike.failures, alike.attempts,
    alike.forwarded, alike.limit, alike.outward⟩

/-- Counting an attempt keeps states alike. -/
theorem attempt : Alike first.attempt second.attempt := by
  have counted :
      Alike
        { first with attempts := first.attempts + 1 }
        { second with attempts := second.attempts + 1 } :=
    ⟨alike.now, alike.failures, congrArg (· + 1) alike.attempts,
      alike.forwarded, alike.limit, alike.outward⟩
  rw [State.attempt, State.attempt, alike.attempts]
  rw [alike.attempts] at counted
  exact counted.record _

/-- Counting a delivery keeps states alike. -/
theorem take :
    Alike
      { first with forwarded := first.forwarded + 1, failures := 0 }
      { second with forwarded := second.forwarded + 1, failures := 0 } :=
  ⟨alike.now, rfl, alike.attempts, congrArg (· + 1) alike.forwarded,
    alike.limit, alike.outward⟩

/-- What the next attempts lead to is not seen from outside. -/
theorem plan (connects others : List TimedConnect) :
    Alike { first with connects } { second with connects := others } :=
  ⟨alike.now, alike.failures, alike.attempts, alike.forwarded, alike.limit,
    alike.outward⟩

/-- Emptying both decoders keeps states alike. -/
theorem reset :
    Alike
      { first with decoder := first.decoder.reset }
      { second with decoder := second.decoder.reset } :=
  ⟨alike.now, alike.failures, alike.attempts, alike.forwarded, alike.limit,
    alike.outward⟩

/-- Ending for the same cause keeps states alike. -/
private theorem finish (termination : Termination) :
    Alike (first.finish termination) (second.finish termination) := by
  rw [State.finish, State.finish, alike.attempts, alike.forwarded]
  exact (alike.record _).enter _ _

/-- Both end, and close their streams if these are open. -/
theorem stop
    (bothOpen : first.phase.isOpen = second.phase.isOpen)
    (termination : Termination) :
    Alike (first.stop termination) (second.stop termination) := by
  rw [State.stop, State.stop, bothOpen]
  split
  · exact (alike.record .closed).finish termination
  · exact alike.finish termination

end

end Alike

end State

namespace Scenario

/-- Two scenarios that differ in their connections only. -/
structure SameSurroundings (first second : Scenario) : Prop where
  url : first.url = second.url
  settings : first.settings = second.settings
  consumer : first.consumer = second.consumer
  cancellation : first.cancellation = second.cancellation
  jitter : first.jitter = second.jitter

namespace SameSurroundings

variable {first second : Scenario}
variable {state other : State}

theorem symm (same : SameSurroundings first second) :
    SameSurroundings second first :=
  ⟨same.url.symm, same.settings.symm, same.consumer.symm,
    same.cancellation.symm, same.jitter.symm⟩

section

variable (same : SameSurroundings first second)
variable (alike : state.Alike other)

include same alike

/-- While events are delivered, states that look alike wake alike. -/
theorem wakeForCancel_eq (due : Option Milliseconds) :
    first.wakeForCancel state due = second.wakeForCancel other due := by
  simp only [wakeForCancel, cancelTime?, same.cancellation, alike.now,
    alike.forwarded]

/-- States that look alike wake alike. -/
theorem wake_eq (due : Option Milliseconds) :
    first.wake state due = second.wake other due := by
  simp only [wake, stopTime?, cancelTime?, detachTime?, same.cancellation,
    same.consumer, alike.now, alike.forwarded]

/-- States that look alike wait as long after a failure. -/
theorem pause_eq : first.pause state = second.pause other := by
  simp only [pause, nextFailures, same.settings, same.jitter, alike.failures,
    alike.attempts]

/-- Backing off for the same reason keeps states alike. -/
theorem backOff_alike (reason : BackoffReason) :
    (first.backOff state reason).Alike (second.backOff other reason) := by
  have failures : nextFailures state = nextFailures other := by
    rw [nextFailures, nextFailures, alike.failures]
  have counted :
      State.Alike
        { state with failures := nextFailures other }
        { other with failures := nextFailures other } :=
    ⟨alike.now, rfl, alike.attempts, alike.forwarded, alike.limit,
      alike.outward⟩
  rw [backOff, backOff, failures, same.pause_eq alike]
  exact (counted.record _).enter _ _

end

end SameSurroundings

section

variable {scenario : Scenario}
variable (stays : ∀ time taken, scenario.isDetached time taken = false)

include stays

/-- A consumer that stays never stops the session. -/
private theorem detachTime?_of_stays (state : State) :
    scenario.detachTime? state = none := by
  cases detaches : scenario.detachTime? state with
  | none =>
      rfl
  | some time =>
      obtain ⟨-, given, -⟩ := signalTime?_eq_some detaches
      have notGiven := stays time state.forwarded
      rw [isDetached, given] at notGiven
      cases notGiven

/-- With a consumer that stays, only cancellation is there to be heard. -/
theorem wakeForCancel_of_stays (state : State) (due : Option Milliseconds) :
    scenario.wakeForCancel state due = scenario.wake state due := by
  rw [wakeForCancel, wake, stopTime?, detachTime?_of_stays stays state]
  cases scenario.cancelTime? state with
  | none =>
      rfl
  | some time =>
      rfl

end

end Scenario

end EventRelay.Session
