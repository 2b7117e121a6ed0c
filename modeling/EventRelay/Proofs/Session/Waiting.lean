import EventRelay.Session.Machine

namespace EventRelay.Session

/-!
# Waiting

A session waits until what it waits for is there, or until the first moment
at which it must stop, whichever comes first; a stop wins a tie.
-/

open Timing (Milliseconds)

/-- The time of a signal is the first moment from now at which it is given. -/
theorem signalTime?_eq_some
    {moment : Option Milliseconds}
    {bound : Option Nat}
    {now taken time : Nat}
    (signals : signalTime? moment bound now taken = some time) :
    now ≤ time ∧
      isGiven moment bound time taken = true ∧
      ∀ earlier, now ≤ earlier → earlier < time →
        isGiven moment bound earlier taken = false := by
  rw [signalTime?] at signals
  split at signals
  · next given =>
      simp only [Option.some.injEq] at signals
      subst signals
      refine ⟨Nat.le_refl _, given, ?_⟩
      intro earlier notBefore before
      exact absurd before (Nat.not_lt_of_le notBefore)
  · next notGiven =>
      subst signals
      simp only [isGiven, Bool.not_eq_true, Bool.or_eq_false_iff, hasCome,
        decide_eq_false_iff_not] at notGiven
      obtain ⟨notCome, notReached⟩ := notGiven
      refine ⟨Nat.le_of_not_le notCome, by simp [isGiven, hasCome], ?_⟩
      intro earlier _ before
      simp only [isGiven, hasCome, notReached, Bool.or_false,
        decide_eq_false_iff_not]
      exact Nat.not_le_of_lt before

/-- A signal without a time is never given. -/
theorem signalTime?_eq_none
    {moment : Option Milliseconds}
    {bound : Option Nat}
    {now taken : Nat}
    (signals : signalTime? moment bound now taken = none)
    (time : Milliseconds) :
    isGiven moment bound time taken = false := by
  rw [signalTime?] at signals
  split at signals
  · simp at signals
  · next notGiven =>
      subst signals
      simpa [isGiven, hasCome] using notGiven

namespace Scenario

/-- Why a session must stop at a time, if it must. -/
def stopReason? (scenario : Scenario) (now taken : Nat) : Option Termination :=
  if scenario.isCancelled now taken then
    some .cancelled
  else if scenario.isDetached now taken then
    some .consumerGone
  else
    none

/-- A session need not stop where neither signal is given. -/
theorem stopReason?_eq_none_iff
    {scenario : Scenario}
    {now taken : Nat} :
    scenario.stopReason? now taken = none ↔
      scenario.isCancelled now taken = false ∧
        scenario.isDetached now taken = false := by
  unfold stopReason?
  cases scenario.isCancelled now taken <;>
    cases scenario.isDetached now taken <;>
    simp

/-- The time of the stop is the first moment at which the session must stop. -/
theorem stopTime?_eq_some
    {scenario : Scenario}
    {state : State}
    {time : Milliseconds}
    {termination : Termination}
    (stops : scenario.stopTime? state = some (time, termination)) :
    state.now ≤ time ∧
      scenario.stopReason? time state.forwarded = some termination ∧
      ∀ moment, state.now ≤ moment → moment < time →
        scenario.stopReason? moment state.forwarded = none := by
  simp only [stopReason?_eq_none_iff]
  unfold stopTime? at stops
  cases cancels : scenario.cancelTime? state with
  | none =>
      have neverCancelled := signalTime?_eq_none cancels
      cases detaches : scenario.detachTime? state with
      | none =>
          simp [cancels, detaches, earlier] at stops
      | some detach =>
          simp only [cancels, detaches, Option.map_none, Option.map_some,
            earlier, Option.some.injEq, Prod.mk.injEq] at stops
          obtain ⟨rfl, rfl⟩ := stops
          obtain ⟨notBefore, detached, first⟩ := signalTime?_eq_some detaches
          refine ⟨notBefore, ?_, ?_⟩
          · simp [stopReason?, isCancelled, isDetached, neverCancelled,
              detached]
          · intro moment later before
            exact ⟨neverCancelled moment, first moment later before⟩
  | some cancel =>
      obtain ⟨notBefore, cancelled, first⟩ := signalTime?_eq_some cancels
      cases detaches : scenario.detachTime? state with
      | none =>
          simp only [cancels, detaches, Option.map_none, Option.map_some,
            earlier, Option.some.injEq, Prod.mk.injEq] at stops
          obtain ⟨rfl, rfl⟩ := stops
          have neverDetached := signalTime?_eq_none detaches
          refine ⟨notBefore, by simp [stopReason?, isCancelled, cancelled],
            ?_⟩
          intro moment later before
          exact ⟨first moment later before, neverDetached moment⟩
      | some detach =>
          obtain ⟨detachNotBefore, detached, detachFirst⟩ :=
            signalTime?_eq_some detaches
          simp only [cancels, detaches, Option.map_some, earlier] at stops
          split at stops
          · next cancelFirst =>
              simp only [Option.some.injEq, Prod.mk.injEq] at stops
              obtain ⟨rfl, rfl⟩ := stops
              refine ⟨notBefore,
                by simp [stopReason?, isCancelled, cancelled], ?_⟩
              intro moment later before
              exact ⟨first moment later before,
                detachFirst moment later
                  (Nat.lt_of_lt_of_le before cancelFirst)⟩
          · next detachEarlier =>
              simp only [Option.some.injEq, Prod.mk.injEq] at stops
              obtain ⟨rfl, rfl⟩ := stops
              have notCancelled :=
                first detach detachNotBefore (Nat.lt_of_not_le detachEarlier)
              refine ⟨detachNotBefore, ?_, ?_⟩
              · simp [stopReason?, isCancelled, isDetached, notCancelled,
                  detached]
              · intro moment later before
                have beforeCancel : moment < cancel :=
                  Nat.lt_trans before (Nat.lt_of_not_le detachEarlier)
                exact ⟨first moment later beforeCancel,
                  detachFirst moment later before⟩

/-- Without a time of a stop the session need never stop. -/
theorem stopTime?_eq_none
    {scenario : Scenario}
    {state : State}
    (stops : scenario.stopTime? state = none)
    (moment : Milliseconds) :
    scenario.stopReason? moment state.forwarded = none := by
  rw [stopReason?_eq_none_iff]
  unfold stopTime? at stops
  cases cancels : scenario.cancelTime? state with
  | none =>
      cases detaches : scenario.detachTime? state with
      | none =>
          exact ⟨signalTime?_eq_none cancels moment,
            signalTime?_eq_none detaches moment⟩
      | some detach =>
          simp [cancels, detaches, earlier] at stops
  | some cancel =>
      cases detaches : scenario.detachTime? state with
      | none =>
          simp [cancels, detaches, earlier] at stops
      | some detach =>
          simp only [cancels, detaches, Option.map_some, earlier] at stops
          split at stops <;> simp at stops

/-- A wait that is stopped ends when the stop comes, not after its moment. -/
theorem wakeAt_eq_stopped
    {due : Option Milliseconds}
    {stop : Option (Milliseconds × Termination)}
    {time : Milliseconds}
    {termination : Termination}
    (wakes : wakeAt due stop = .stopped time termination) :
    stop = some (time, termination) ∧ ∀ moment ∈ due, time ≤ moment := by
  unfold wakeAt at wakes
  split at wakes
  · simp at wakes
  · simp at wakes
  · simp only [Wake.stopped.injEq] at wakes
    obtain ⟨rfl, rfl⟩ := wakes
    exact ⟨rfl, by simp⟩
  · split at wakes
    · next before =>
        simp only [Wake.stopped.injEq] at wakes
        obtain ⟨rfl, rfl⟩ := wakes
        exact ⟨rfl, by simpa using before⟩
    · simp at wakes

/-- A wait that is not stopped ends with its moment, before any stop. -/
theorem wakeAt_eq_ready
    {due : Option Milliseconds}
    {stop : Option (Milliseconds × Termination)}
    {time : Milliseconds}
    (wakes : wakeAt due stop = .ready time) :
    due = some time ∧ ∀ other ∈ stop, time < other.1 := by
  unfold wakeAt at wakes
  split at wakes
  · simp at wakes
  · simp only [Wake.ready.injEq] at wakes
    subst wakes
    exact ⟨rfl, by simp⟩
  · simp at wakes
  · split at wakes
    · simp at wakes
    · next later =>
        simp only [Wake.ready.injEq] at wakes
        subst wakes
        exact ⟨rfl, by simpa using later⟩

/-- A wait that never ends is for nothing, and no stop comes. -/
theorem wakeAt_eq_never
    {due : Option Milliseconds}
    {stop : Option (Milliseconds × Termination)}
    (wakes : wakeAt due stop = .never) :
    due = none ∧ stop = none := by
  unfold wakeAt at wakes
  split at wakes
  · exact ⟨rfl, rfl⟩
  · simp at wakes
  · simp at wakes
  · split at wakes <;> simp at wakes

/-- A session that is stopped while it waits must stop then, and not before. -/
theorem wake_eq_stopped
    {scenario : Scenario}
    {state : State}
    {due : Option Milliseconds}
    {time : Milliseconds}
    {termination : Termination}
    (wakes : scenario.wake state due = .stopped time termination) :
    state.now ≤ time ∧
      (∀ moment ∈ due, time ≤ moment) ∧
      scenario.stopReason? time state.forwarded = some termination ∧
      ∀ moment, state.now ≤ moment → moment < time →
        scenario.stopReason? moment state.forwarded = none := by
  obtain ⟨stops, notAfter⟩ := wakeAt_eq_stopped wakes
  obtain ⟨notBefore, reason, first⟩ := stopTime?_eq_some stops
  exact ⟨notBefore, notAfter, reason, first⟩

/-- A session that gets what it waits for need not stop until then. -/
theorem wake_eq_ready
    {scenario : Scenario}
    {state : State}
    {due : Option Milliseconds}
    {time : Milliseconds}
    (wakes : scenario.wake state due = .ready time) :
    due = some time ∧
      ∀ moment, state.now ≤ moment → moment ≤ time →
        scenario.stopReason? moment state.forwarded = none := by
  obtain ⟨isDue, beforeStop⟩ := wakeAt_eq_ready wakes
  refine ⟨isDue, ?_⟩
  intro moment notBefore notAfter
  cases stops : scenario.stopTime? state with
  | none =>
      exact stopTime?_eq_none stops moment
  | some stop =>
      obtain ⟨-, -, first⟩ := stopTime?_eq_some stops
      exact first moment notBefore
        (Nat.lt_of_le_of_lt notAfter (beforeStop stop stops))

/-- A session that looks whether it must stop now finds that it must. -/
theorem stopReason?_of_stopped_now
    {scenario : Scenario}
    {state : State}
    {time : Milliseconds}
    {termination : Termination}
    (wakes : scenario.wake state (some state.now) = .stopped time termination) :
    scenario.stopReason? state.now state.forwarded = some termination := by
  obtain ⟨notBefore, notAfter, reason, -⟩ := wake_eq_stopped wakes
  have now : state.now = time := Nat.le_antisymm notBefore (notAfter _ rfl)
  rw [now]
  exact reason

/-- A session that looks whether it must stop now finds that it need not. -/
theorem stopReason?_of_ready_now
    {scenario : Scenario}
    {state : State}
    {time : Milliseconds}
    (wakes : scenario.wake state (some state.now) = .ready time) :
    scenario.stopReason? state.now state.forwarded = none := by
  obtain ⟨isDue, quiet⟩ := wake_eq_ready wakes
  cases isDue
  exact quiet _ (Nat.le_refl _) (Nat.le_refl _)

/-- While events are delivered only a cancellation ends the wait. -/
theorem wakeForCancel_eq_stopped
    {scenario : Scenario}
    {state : State}
    {due : Option Milliseconds}
    {time : Milliseconds}
    {termination : Termination}
    (wakes : scenario.wakeForCancel state due = .stopped time termination) :
    termination = .cancelled ∧
      state.now ≤ time ∧
      (∀ moment ∈ due, time ≤ moment) ∧
      scenario.isCancelled time state.forwarded = true ∧
      ∀ moment, state.now ≤ moment → moment < time →
        scenario.isCancelled moment state.forwarded = false := by
  obtain ⟨stops, notAfter⟩ := wakeAt_eq_stopped wakes
  obtain ⟨cancel, cancels, shape⟩ := Option.map_eq_some_iff.mp stops
  simp only [Prod.mk.injEq] at shape
  obtain ⟨rfl, rfl⟩ := shape
  obtain ⟨notBefore, cancelled, first⟩ := signalTime?_eq_some cancels
  exact ⟨rfl, notBefore, notAfter, cancelled, first⟩

/-- A consumer that answers in time does so before the cancellation. -/
theorem wakeForCancel_eq_ready
    {scenario : Scenario}
    {state : State}
    {due : Option Milliseconds}
    {time : Milliseconds}
    (wakes : scenario.wakeForCancel state due = .ready time) :
    due = some time ∧
      ∀ moment, state.now ≤ moment → moment ≤ time →
        scenario.isCancelled moment state.forwarded = false := by
  obtain ⟨isDue, beforeStop⟩ := wakeAt_eq_ready wakes
  refine ⟨isDue, ?_⟩
  intro moment notBefore notAfter
  cases cancels : scenario.cancelTime? state with
  | none =>
      exact signalTime?_eq_none cancels moment
  | some cancel =>
      obtain ⟨-, -, first⟩ := signalTime?_eq_some cancels
      have before : time < cancel :=
        beforeStop (cancel, .cancelled) (by rw [cancels]; rfl)
      exact first moment notBefore (Nat.lt_of_le_of_lt notAfter before)

/-- Waiting for a moment ends with that moment unless the session is stopped. -/
theorem wakeAt_some_ready
    {due : Milliseconds}
    {stop : Option (Milliseconds × Termination)}
    (notStopped :
      ∀ time termination, wakeAt (some due) stop = .stopped time termination →
        False) :
    ∃ time, wakeAt (some due) stop = .ready time := by
  unfold wakeAt at notStopped ⊢
  cases stop with
  | none =>
      exact ⟨due, rfl⟩
  | some stop =>
      simp only at notStopped ⊢
      split at notStopped
      · exact (notStopped _ _ rfl).elim
      · next later =>
          exact ⟨due, by simp [later]⟩

/-- A session that need not stop until a moment gets what comes then. -/
theorem wake_of_quiet_until
    {scenario : Scenario}
    {state : State}
    {due : Milliseconds}
    (quiet : ∀ moment, state.now ≤ moment → moment ≤ due →
      scenario.stopReason? moment state.forwarded = none) :
    scenario.wake state (some due) = .ready due := by
  have notStopped : ∀ time termination,
      scenario.wake state (some due) = .stopped time termination → False := by
    intro time termination wakes
    obtain ⟨notBefore, notAfter, reason, -⟩ := wake_eq_stopped wakes
    rw [quiet time notBefore (notAfter due rfl)] at reason
    cases reason
  obtain ⟨time, wakes⟩ := wakeAt_some_ready notStopped
  obtain ⟨isDue, -⟩ := wakeAt_eq_ready wakes
  obtain rfl := Option.some.inj isDue
  exact wakes

section

variable {scenario : Scenario}
variable {state : State}
variable (quiet :
  ∀ moment, scenario.stopReason? moment state.forwarded = none)

include quiet

/-- A session that need never stop gets what it waits for. -/
theorem wake_of_quiet (due : Milliseconds) :
    scenario.wake state (some due) = .ready due :=
  wake_of_quiet_until fun moment _ _ => quiet moment

/-- A session that need never stop is not cancelled while it delivers. -/
theorem wakeForCancel_of_quiet (due : Milliseconds) :
    scenario.wakeForCancel state (some due) = .ready due := by
  cases cancels : scenario.cancelTime? state with
  | none =>
      rw [wakeForCancel, cancels]
      rfl
  | some time =>
      obtain ⟨-, given, -⟩ := signalTime?_eq_some cancels
      obtain ⟨notCancelled, -⟩ := stopReason?_eq_none_iff.mp (quiet time)
      rw [isCancelled, given] at notCancelled
      cases notCancelled

end

end Scenario

end EventRelay.Session
