import EventRelay.Proofs.Observe.Metrics
import EventRelay.Proofs.Session.Counting
import EventRelay.Proofs.Session.OneStream

namespace EventRelay.Session

/-!
# Metrics count events

Each series holds the number of the events of one kind, and the active
sessions are those that were started and have not ended.
-/

open Observe (Metrics Series)
open Source (ConnectError)

namespace Event

/-- Why an attempt was refused. -/
def refusal? : Event → Option ConnectError
  | .refused error =>
      some error
  | _ =>
      none

/-- Why a wait before the next attempt begins. -/
def backoffReason? : Event → Option BackoffReason
  | .backedOff reason _ _ =>
      some reason
  | _ =>
      none

/-- What an event adds to the series that count. -/
def adds (counts : Series → Bool) (event : Event) : Int :=
  match event.measure? with
  | some (series, amount) =>
      if counts series then amount else 0
  | none =>
      0

/-- An event that counts once adds one where it is counted. -/
private theorem adds_of_one
    {event : Event}
    {series : Series}
    (measures : event.measure? = some (series, 1))
    (counts : Series → Bool) :
    event.adds counts = (counts series).toNat := by
  rw [adds, measures]
  cases counted : counts series <;> simp [counted]

/-- A sum over events. -/
def sumOf (adds : Event → Int) : List Event → Int
  | [] =>
      0
  | event :: rest =>
      adds event + sumOf adds rest

/-- Sums over two parts add up. -/
theorem sumOf_append (adds : Event → Int) (first second : List Event) :
    sumOf adds (first ++ second) = sumOf adds first + sumOf adds second := by
  induction first with
  | nil =>
      exact (Int.zero_add _).symm
  | cons event rest inductionHypothesis =>
      rw [List.cons_append, sumOf, inductionHypothesis, sumOf, Int.add_assoc]

/-- A sum of ones is a count. -/
theorem sumOf_eq_countP
    {adds : Event → Int}
    {counted : Event → Bool}
    (each : ∀ event, adds event = (counted event).toNat)
    (events : List Event) :
    sumOf adds events = events.countP counted := by
  induction events with
  | nil =>
      rfl
  | cons event rest inductionHypothesis =>
      rw [sumOf, inductionHypothesis, each, List.countP_cons]
      cases counted event <;> simp [Int.add_comm]

end Event

namespace History

/-- How often an attempt was refused for one of some reasons. -/
def refusals (history : History) (chosen : ConnectError → Bool) : Nat :=
  history.countP (·.event.refusal?.any chosen)

/-- How often a wait began for one of some reasons. -/
def waits (history : History) (chosen : BackoffReason → Bool) : Nat :=
  history.countP (·.event.backoffReason?.any chosen)

/-- What is read off metrics is what the events of the history add to it. -/
theorem read_metrics
    (read : Metrics → Int)
    (counts : Series → Bool)
    (empty : read .empty = 0)
    (reads :
      ∀ metrics series amount,
        read (Metrics.add metrics series amount) =
          read metrics + if counts series then amount else 0)
    (history : History) :
    read history.metrics = Event.sumOf (Event.adds counts) history.events := by
  -- Measuring begins with what the metrics already hold.
  have onto (metrics : Metrics) :
      read (history.measureOnto metrics) =
        read metrics + Event.sumOf (Event.adds counts) history.events := by
    induction history generalizing metrics with
    | nil =>
        exact (Int.add_zero _).symm
    | cons timed rest inductionHypothesis =>
        rw [events, List.map_cons, Event.sumOf, Event.adds, ← Int.add_assoc]
        unfold measureOnto events at inductionHypothesis
        unfold measureOnto
        cases measures : timed.event.measure? with
        | none =>
            simp [measures, inductionHypothesis]
        | some measured =>
            simp [measures, inductionHypothesis, reads]
  rw [metrics, onto, empty, Int.zero_add]

/-- The value of a series is the sum of what the events add to it. -/
theorem value_metrics (history : History) (series : Series) :
    history.metrics.value series =
      Event.sumOf (Event.adds (· == series)) history.events :=
  read_metrics (·.value series) (· == series) rfl (by simp) history

/-- The total under a name is the sum of what the events add under it. -/
private theorem total_metrics (history : History) (name : String) :
    history.metrics.total name =
      Event.sumOf (Event.adds (·.name == name)) history.events :=
  read_metrics (·.total name) (·.name == name) rfl (by simp) history

/-- A series to which each event of one kind adds one holds their number. -/
theorem sumOf_events
    {adds : Event → Int}
    (counted : Event → Bool)
    (each : ∀ event, adds event = (counted event).toNat)
    (history : History) :
    Event.sumOf adds history.events = history.countP (counted ·.event) := by
  rw [Event.sumOf_eq_countP each, events, List.countP_map]
  rfl

/-- Forwarded frames are counted delivery by delivery. -/
theorem value_forwardedFrames (history : History) :
    history.metrics.value .forwardedFrames = history.deliveries.length := by
  rw [value_metrics, deliveries, List.length_filterMap_eq_countP]
  refine sumOf_events (·.delivery?.isSome) (fun event => ?_) history
  cases event <;> rfl

/-- Successful connects are the openings. -/
theorem value_connects_ok (history : History) :
    history.metrics.value (.connects "ok") = history.openings := by
  rw [value_metrics, openings, switches, List.count_filterMap]
  refine sumOf_events (·.switch? == some true) (fun event => ?_) history
  cases event with
  | refused error =>
      cases error <;>
        simp [Event.adds, Event.measure?, Event.switch?, ConnectError.label]
  | _ =>
      simp [Event.adds, Event.measure?, Event.switch?]

/-- Refused connects are the refusals with that label. -/
theorem value_connects_refused
    (history : History)
    {label : String}
    (failure : label ≠ "ok") :
    history.metrics.value (.connects label) =
      history.refusals (·.label == label) := by
  rw [value_metrics]
  refine sumOf_events (·.refusal?.any (·.label == label))
    (fun event => ?_) history
  cases event with
  | opened attempt =>
      have other : (Series.connects "ok" == .connects label) = false := by
        simp [Ne.symm failure]
      rw [Event.adds_of_one rfl, other]
      rfl
  | refused error =>
      have same :
          (Series.connects error.label == .connects label) =
            (error.label == label) := by
        rw [Bool.eq_iff_iff]
        simp
      rw [Event.adds_of_one rfl, same]
      rfl
  | _ =>
      rfl

/-- Backoffs under a label are the waits for that reason. -/
theorem value_backoffs (history : History) (label : String) :
    history.metrics.value (.backoffs label) =
      history.waits (·.label == label) := by
  rw [value_metrics]
  refine sumOf_events (·.backoffReason?.any (·.label == label))
    (fun event => ?_) history
  cases event with
  | backedOff reason failures delay =>
      have same :
          (Series.backoffs reason.label == .backoffs label) =
            (reason.label == label) := by
        rw [Bool.eq_iff_iff]
        simp
      rw [Event.adds_of_one rfl, same]
      rfl
  | _ =>
      rfl

/-- All backoffs together are the waits. -/
theorem total_backoffs (history : History) :
    history.metrics.total "relay_backoffs_total" = history.backoffs := by
  rw [total_metrics]
  refine sumOf_events Event.isBackoff (fun event => ?_) history
  cases event <;> rfl

end History

end EventRelay.Session
