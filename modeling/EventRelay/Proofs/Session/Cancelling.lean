import EventRelay.Proofs.Session.Ending

namespace EventRelay.Session

/-!
# Cancellation

A cancelled session ends at the moment of its cancellation, whatever it waits
for and whatever else happens at that moment.
-/

open Timing (Milliseconds)

/-- The step that ends a session takes no event. -/
private theorem Scenario.Transition.forwarded_of_ended
    {scenario : Scenario}
    {state next : State}
    {events : List Event}
    {termination : Termination}
    (transition : scenario.Transition state events next)
    (phase : next.phase = .ended termination) :
    next.forwarded = state.forwarded := by
  cases transition with
  | attemptStopped | dialStopped | streamStopped | readStopped
  | deliveryStopped | emitStopped | turnedAway | pauseStopped =>
      exact State.forwarded_stop _ _
  | accepted =>
      cases phase
  | _ =>
      rfl

namespace Reaches

variable {scenario : Scenario}
variable {state : State}

/-- After a cancellation nothing new is begun. -/
theorem calm_after_cancellation
    (reaches : Reaches scenario scenario.initial state)
    {before after : History}
    {time : Milliseconds}
    {event : Event}
    (split : state.history = before ++ ⟨time, event⟩ :: after)
    (cancelled :
      scenario.isCancelled time before.deliveries.length = true) :
    event.windsDown = true := by
  rcases reaches.recorded_by_step split with
      rfl | ⟨origin, next, events, toOrigin, transition, member, rfl, taken⟩
  · rfl
  · rw [taken] at cancelled
    exact transition.calm_of_heard toOrigin.onTime
      (Scenario.heard?_of_cancelled cancelled) event member

/-- A session ends as cancelled exactly if it is cancelled when it ends. -/
theorem cancelled_iff
    (reaches : Reaches scenario scenario.initial state) :
    ∀ termination, state.phase = .ended termination →
      (termination = .cancelled ↔
        scenario.isCancelled state.now state.forwarded = true) := by
  refine reaches.invariant_of_reachable
    (fun state => ∀ termination, state.phase = .ended termination →
      (termination = .cancelled ↔
        scenario.isCancelled state.now state.forwarded = true))
    ?_ (by simp [Scenario.initial, State.record])
  intro state events next reaches transition _ termination phase
  have sameTaken := transition.forwarded_of_ended phase
  obtain ⟨-, ending⟩ := transition.awaited reaches.onTime
  cases ending with
  | stopped ended reason =>
      rw [phase] at ended
      cases ended
      rw [sameTaken]
      exact Scenario.heard?_eq_cancelled_iff reason
  | ready due unheard ends =>
      rw [ends termination phase, sameTaken,
        Scenario.not_cancelled_of_unheard unheard]
      simp
  | drained _ _ _ _ running =>
      exact (running termination phase).elim

/-- A session is not beyond the moment at which it is to be cancelled. -/
private theorem now_le_cancelAt
    (reaches : Reaches scenario scenario.initial state)
    {moment : Milliseconds}
    (cancels : scenario.cancellation.cancelAt = some moment) :
    state.now ≤ moment := by
  refine Nat.le_of_not_lt fun beyond => ?_
  have uncancelled := reaches.not_cancelledBy moment beyond
  simp [Scenario.cancelledBy, Scenario.isCancelled, isGiven, cancels,
    hasCome] at uncancelled

/-- A session that is to be cancelled at some moment has ended by then. -/
private theorem exists_end_by_cancelAt
    (reaches : Reaches scenario scenario.initial state)
    (positive : 0 < scenario.settings.backoff.leastDelay 1)
    {moment : Milliseconds}
    (cancels : scenario.cancellation.cancelAt = some moment) :
    ∃ last termination,
      Reaches scenario state last ∧
        last.phase = .ended termination ∧
        last.now ≤ moment := by
  obtain ⟨last, termination, toLast, phase⟩ :=
    reaches.exists_end_of_bounded positive
      (fun toLater => toLater.now_le_cancelAt cancels)
      (by
        intro later _ running
        have cancelled : scenario.isCancelled moment later.forwarded = true := by
          simp [Scenario.isCancelled, isGiven, cancels, hasCome]
        refine Option.ne_none_iff_exists'.mp fun stuck => ?_
        have unheard := (Scenario.never_of_stuck stuck running).2 moment
        rw [Scenario.heard?_of_cancelled cancelled] at unheard
        cases unheard)
  exact ⟨last, termination, toLast, phase,
    (reaches.trans toLast).now_le_cancelAt cancels⟩

end Reaches

/--
A cancellation ends a session at the moment at which it is given, wherever the
session stands and whether or not its consumer has left.  No session goes on
after that moment, and from then on it begins nothing new.  It ends as
cancelled exactly if it is cancelled by its end.  If waits take time, the
moment of the cancellation is reached, or the session has ended before.
-/
theorem cancellation_ends_at_once
    {scenario : Scenario}
    {state : State}
    (reaches : Reaches scenario scenario.initial state) :
    (∀ moment,
      scenario.StandsAt state moment →
      scenario.isCancelled moment state.forwarded = true →
      EndsAt scenario state moment .cancelled) ∧
    (∀ moment < state.now,
      scenario.cancelledBy state.history moment = false) ∧
    (∀ (before after : History) time event,
      state.history = before ++ ⟨time, event⟩ :: after →
      scenario.isCancelled time before.deliveries.length = true →
      event.windsDown = true) ∧
    (∀ termination, state.phase = .ended termination →
      (termination = .cancelled ↔
        scenario.isCancelled state.now state.forwarded = true)) ∧
    (∀ moment,
      scenario.cancellation.cancelAt = some moment →
      0 < scenario.settings.backoff.leastDelay 1 →
      ∃ last termination,
        Reaches scenario state last ∧
          last.phase = .ended termination ∧
          last.now ≤ moment) := by
  refine ⟨?_, reaches.not_cancelledBy, ?_, reaches.cancelled_iff, ?_⟩
  · intro moment stands cancelled
    exact stands.endsAt reaches.onTime (Scenario.heard?_of_cancelled cancelled)
  · intro before after time event split cancelled
    exact reaches.calm_after_cancellation split cancelled
  · intro moment cancels positive
    exact reaches.exists_end_by_cancelAt positive cancels

/--
A session that is cancelled while its consumer, which has just left, takes an
event.
-/
def cancelledWhileEmitting : Scenario :=
  { Scenario.reconnecting with
    consumer :=
      { Consumer.eager with delay := fun _ => some 4, detachAt := some 9 }
    cancellation := ⟨some 10, none⟩ }

/-- The event is not taken, and the open stream is closed. -/
theorem cancellation_while_emitting :
    (cancelledWhileEmitting.stateAt 9).phase.isOpen = true ∧
      cancelledWhileEmitting.isDetached 9 0 = true ∧
      EndsAt cancelledWhileEmitting (cancelledWhileEmitting.stateAt 9) 10
        .cancelled := by
  have reaches := cancelledWhileEmitting.reaches_stateAt 9
  have stands :
      cancelledWhileEmitting.StandsAt (cancelledWhileEmitting.stateAt 9) 10 :=
    .of_step (by decide +kernel)
  exact ⟨by decide +kernel, by decide,
    (cancellation_ends_at_once reaches).1 10 stands (by decide +kernel)⟩

end EventRelay.Session
