import EventRelay.Proofs.Session.Reachable

namespace EventRelay.Session

/-!
# Counting events

The counters of a session count events of its history: the failures are the
waits since the last event that was taken, and the number of events taken is
their number.  Times of events never go back.
-/

open Timing (Milliseconds)

namespace Event

/-- Whether the source is asked for a stream. -/
def isCall : Event → Bool
  | .called =>
      true
  | _ =>
      false

/-- Whether a wait before the next attempt begins. -/
def isBackoff : Event → Bool
  | .backedOff _ _ _ =>
      true
  | _ =>
      false

end Event

namespace History

/-- How often the source was asked for a stream. -/
def calls (history : History) : Nat :=
  history.countP (·.event.isCall)

/-- How often a wait began. -/
def backoffs (history : History) : Nat :=
  history.countP (·.event.isBackoff)

/-- How often a wait began since the last event that was taken. -/
def streak (history : History) : Nat :=
  backoffs (history.reverse.takeWhile (·.event.delivery?.isNone))

end History

/-- The waits since the last event that was taken, after one more event. -/
def streakAfter (streak : Nat) (event : Event) : Nat :=
  if event.delivery?.isNone then
    streak + event.isBackoff.toNat
  else
    0

namespace History

theorem streak_concat (history : History) (timed : Timed) :
    streak (history ++ [timed]) = streakAfter history.streak timed.event := by
  unfold streak streakAfter
  rw [List.reverse_append, List.reverse_singleton, List.singleton_append,
    List.takeWhile_cons]
  split
  · rw [backoffs, List.countP_cons]
    cases timed.event.isBackoff <;> rfl
  · rfl

/-- New events are counted one after another. -/
theorem streak_append
    (history : History)
    (now : Milliseconds)
    (events : List Event) :
    streak (history ++ events.map (Timed.mk now)) =
      events.foldl streakAfter history.streak := by
  induction events generalizing history with
  | nil =>
      rw [List.map_nil, List.append_nil, List.foldl_nil]
  | cons event later inductionHypothesis =>
      rw [List.map_cons, List.append_cons, inductionHypothesis,
        streak_concat, List.foldl_cons]

/-- Without an event that is taken, all waits count. -/
theorem streak_append_of_untaken
    {history later : History}
    (untaken : ∀ timed ∈ later, timed.event.delivery? = none) :
    streak (history ++ later) = history.streak + later.backoffs := by
  unfold streak
  rw [List.reverse_append, List.takeWhile_append_of_pos, backoffs,
    List.countP_append, List.countP_reverse, Nat.add_comm]
  · rfl
  · intro timed member
    rw [untaken timed (List.mem_reverse.mp member)]
    rfl

/-- What is counted of new events adds to what was counted before. -/
theorem countP_append
    (history : History)
    (now : Milliseconds)
    (events : List Event)
    (counted : Event → Bool) :
    List.countP (counted ·.event) (history ++ events.map (Timed.mk now)) =
      history.countP (counted ·.event) + events.countP counted := by
  rw [List.countP_append, List.countP_map]
  rfl

theorem backoffs_append
    (history : History)
    (now : Milliseconds)
    (events : List Event) :
    backoffs (history ++ events.map (Timed.mk now)) =
      history.backoffs + events.countP Event.isBackoff :=
  history.countP_append now events Event.isBackoff

theorem calls_append
    (history : History)
    (now : Milliseconds)
    (events : List Event) :
    calls (history ++ events.map (Timed.mk now)) =
      history.calls + events.countP Event.isCall :=
  history.countP_append now events Event.isCall

theorem deliveries_append
    (history : History)
    (now : Milliseconds)
    (events : List Event) :
    deliveries (history ++ events.map (Timed.mk now)) =
      history.deliveries ++ events.filterMap Event.delivery? := by
  rw [deliveries, List.filterMap_append, List.filterMap_map]
  rfl

end History

namespace State

@[simp] theorem failures_stop (state : State) (termination : Termination) :
    (state.stop termination).failures = state.failures := by
  unfold stop
  split <;> rfl

@[simp] theorem forwarded_stop (state : State) (termination : Termination) :
    (state.stop termination).forwarded = state.forwarded := by
  unfold stop
  split <;> rfl

end State

/-- A further failure is counted as one more wait. -/
theorem Scenario.nextFailures_eq
    {state : State}
    (counted : state.failures = min state.history.streak maxFailures) :
    nextFailures state = min (state.history.streak + 1) maxFailures := by
  rw [nextFailures, counted]
  omega

namespace Scenario.Transition

/-- The counter of failures follows the waits. -/
theorem failures_eq
    {scenario : Scenario}
    {state next : State}
    {events : List Event}
    (transition : scenario.Transition state events next)
    (before : state.failures = min state.history.streak maxFailures) :
    next.failures = min next.history.streak maxFailures := by
  rw [transition.history, History.streak_append]
  cases transition with
  | attemptStopped | dialStopped | streamStopped | readStopped
  | deliveryStopped | emitStopped | turnedAway | pauseStopped =>
      rw [State.failures_stop]
      exact before
  | refused | readFailed | readEnded | readIdle | tooLarge =>
      exact nextFailures_eq before
  | accepted =>
      exact (Nat.zero_min _).symm
  | called | opened | dialSilent | reading | received | readSilent | offered
  | drained | resumed =>
      exact before

/-- The counter of events follows the events that are taken. -/
theorem forwarded_eq
    {scenario : Scenario}
    {state next : State}
    {events : List Event}
    (transition : scenario.Transition state events next)
    (before : state.forwarded = state.history.deliveries.length) :
    next.forwarded = next.history.deliveries.length := by
  rw [transition.history, History.deliveries_append, List.length_append,
    ← before]
  cases transition with
  | attemptStopped | dialStopped | streamStopped | readStopped
  | deliveryStopped | emitStopped | turnedAway | pauseStopped =>
      rw [State.forwarded_stop]
      rfl
  | _ =>
      rfl

end Scenario.Transition

/-- Events are in the order of time, and none comes after the present. -/
structure Chronological (state : State) : Prop where
  past : ∀ timed ∈ state.history, timed.time ≤ state.now
  ordered : state.history.Pairwise (·.time ≤ ·.time)

/-- What a transition records comes after all that happened before. -/
theorem Scenario.Transition.chronological
    {scenario : Scenario}
    {state next : State}
    {events : List Event}
    (transition : scenario.Transition state events next)
    (before : Chronological state) :
    Chronological next := by
  have past : ∀ timed ∈ state.history, timed.time ≤ next.now :=
    fun timed member =>
      Nat.le_trans (before.past timed member) transition.now_le
  have present :
      ∀ timed ∈ events.map (Timed.mk next.now), timed.time = next.now := by
    simp
  constructor
  · intro timed member
    rw [transition.history, List.mem_append] at member
    rcases member with old | new
    · exact past timed old
    · exact Nat.le_of_eq (present timed new)
  · rw [transition.history, List.pairwise_append]
    refine ⟨before.ordered, ?_, ?_⟩
    · exact List.pairwise_map.mpr
        (List.pairwise_of_forall fun _ _ => Nat.le_refl next.now)
    · intro old oldMember new newMember
      rw [present new newMember]
      exact past old oldMember

namespace Reaches

variable {scenario : Scenario}
variable {state : State}

/-- Failures are the waits since the last event that was taken. -/
theorem failures_eq (reaches : Reaches scenario scenario.initial state) :
    state.failures = min state.history.streak maxFailures :=
  reaches.invariant
    (fun state => state.failures = min state.history.streak maxFailures)
    Scenario.Transition.failures_eq rfl

/-- The number of events taken is that of the history. -/
theorem forwarded_eq (reaches : Reaches scenario scenario.initial state) :
    state.forwarded = state.history.deliveries.length :=
  reaches.invariant
    (fun state => state.forwarded = state.history.deliveries.length)
    Scenario.Transition.forwarded_eq rfl

/-- The history of a reachable state is in the order of time. -/
theorem chronological (reaches : Reaches scenario scenario.initial state) :
    Chronological state :=
  reaches.invariant Chronological Scenario.Transition.chronological
    { past := fun _ member => by
        rw [List.mem_singleton.mp member]
        exact Nat.le_refl _
      ordered := List.pairwise_singleton _ _ }

end Reaches

end EventRelay.Session
