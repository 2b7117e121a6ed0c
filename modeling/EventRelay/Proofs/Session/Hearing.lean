import EventRelay.Proofs.Session.Counting
import EventRelay.Proofs.Session.OneStream

namespace EventRelay.Session

/-!
# Signals that are heard

A session hears the signals to stop wherever it waits, but while it delivers
events it hears only a cancellation.  One lemma says how the wait of a step
ends: the session is stopped at the first moment at which it hears a signal,
or it gets what it waits for before, or it has nothing left to deliver and
does not wait at all.
-/

open Timing (Milliseconds)

namespace Event

/-- Whether an event only brings to an end what was begun before it. -/
def windsDown : Event → Bool
  | .started =>
      true
  | .attempted _ =>
      true
  | .closed =>
      true
  | .backedOff _ _ _ =>
      true
  | .ended _ _ _ =>
      true
  | _ =>
      false

end Event

namespace Phase

/-- Whether events are being delivered. -/
def isDelivering : Phase → Bool
  | .delivering _ =>
      true
  | .emitting _ _ _ =>
      true
  | _ =>
      false

end Phase

namespace State

/-- What a session waits for; in between two waits that is there already. -/
def due? (state : State) : Option Milliseconds :=
  match state.phase with
  | .dialing due _ =>
      due
  | .reading due limit _ _ =>
      if Scenario.comesInTime due limit then due else limit
  | .emitting due _ _ =>
      due
  | .pausing due =>
      some due
  | _ =>
      some state.now

end State

namespace Scenario

/-- Why a session stops at a moment, if it hears a signal to stop. -/
def heard? (scenario : Scenario) (state : State) (moment : Milliseconds) :
    Option Termination :=
  if state.phase.isDelivering then
    if scenario.isCancelled moment state.forwarded then
      some .cancelled
    else
      none
  else
    scenario.stopReason? moment state.forwarded

/-- What is heard is a reason to stop. -/
theorem stopReason?_of_heard?
    {scenario : Scenario}
    {state : State}
    {moment : Milliseconds}
    {termination : Termination}
    (heard : scenario.heard? state moment = some termination) :
    scenario.stopReason? moment state.forwarded = some termination := by
  unfold heard? at heard
  split at heard
  · split at heard
    · next cancelled =>
        rw [stopReason?, if_pos cancelled]
        exact heard
    · cases heard
  · exact heard

/-- A cancellation is heard wherever the session stands. -/
theorem heard?_of_cancelled
    {scenario : Scenario}
    {state : State}
    {moment : Milliseconds}
    (cancelled : scenario.isCancelled moment state.forwarded = true) :
    scenario.heard? state moment = some .cancelled := by
  rw [heard?, stopReason?, if_pos cancelled, if_pos cancelled, ite_self]

/-- The reason is a cancellation exactly if the session is cancelled. -/
theorem heard?_eq_cancelled_iff
    {scenario : Scenario}
    {state : State}
    {moment : Milliseconds}
    {termination : Termination}
    (heard : scenario.heard? state moment = some termination) :
    termination = .cancelled ↔
      scenario.isCancelled moment state.forwarded = true := by
  constructor
  · rintro rfl
    have reason := stopReason?_of_heard? heard
    unfold stopReason? at reason
    split at reason
    · next cancelled =>
        exact cancelled
    · split at reason <;> cases reason
  · intro cancelled
    rw [heard?_of_cancelled cancelled] at heard
    exact (Option.some.inj heard).symm

/-- Where nothing is heard, nothing was cancelled. -/
theorem not_cancelled_of_unheard
    {scenario : Scenario}
    {state : State}
    {moment : Milliseconds}
    (unheard : scenario.heard? state moment = none) :
    scenario.isCancelled moment state.forwarded = false := by
  refine eq_false_of_ne_true fun cancelled => ?_
  rw [heard?_of_cancelled cancelled] at unheard
  cases unheard

end Scenario

/-- What a session waits for has not passed. -/
def OnTime (state : State) : Prop :=
  ∀ due ∈ state.due?, state.now ≤ due

private theorem TimedConnect.now_le_due
    (connect : TimedConnect)
    (now : Milliseconds) :
    ∀ due ∈ connect.due now, now ≤ due := by
  unfold due
  split <;> simp

private theorem TimedRead.now_le_due
    (read : TimedRead)
    (now : Milliseconds) :
    ∀ due ∈ read.due now, now ≤ due := by
  unfold due
  split <;> simp

namespace Scenario

/-- How the wait of a step ends. -/
inductive WaitEnd (scenario : Scenario) (state next : State)
    (events : List Event) : Prop where
  /-- The session heard a signal. -/
  | stopped {termination : Termination}
      (phase : next.phase = .ended termination)
      (reason : scenario.heard? state next.now = some termination)
      (calm : ∀ event ∈ events, event.windsDown = true)
  /-- What the session waited for was there, and no signal was heard. -/
  | ready
      (due : state.due? = some next.now)
      (unheard : scenario.heard? state next.now = none)
      (ends : ∀ termination, next.phase = .ended termination →
        termination = .consumerGone)
  /-- Nothing was left to deliver, so the session did not wait. -/
  | drained {reads : List TimedRead}
      (phase : state.phase = .delivering reads)
      (sameTime : next.now = state.now)
      (sameTaken : next.forwarded = state.forwarded)
      (goesOn : next.phase.isDelivering = false)
      (running : ∀ termination, next.phase ≠ .ended termination)
      (calm : ∀ event ∈ events, event.windsDown = true)

/-- A wait in which no signal is heard until it ends. -/
structure Awaited (scenario : Scenario) (state next : State)
    (events : List Event) : Prop where
  quiet :
    ∀ moment, state.now ≤ moment → moment < next.now →
      scenario.heard? state moment = none
  ending : WaitEnd scenario state next events

section

variable {scenario : Scenario}
variable {state : State}
variable {due : Option Milliseconds}
variable {time : Milliseconds}
variable {termination : Termination}

/--
A wait that is stopped ends at the first moment at which something is heard.
-/
private theorem heard?_of_stopped
    (waits : state.phase.isDelivering = false)
    (wakes : scenario.wake state due = .stopped time termination) :
    state.now ≤ time ∧
      scenario.heard? state time = some termination ∧
      ∀ moment, state.now ≤ moment → moment < time →
        scenario.heard? state moment = none := by
  obtain ⟨notBefore, -, reason, quiet⟩ := wake_eq_stopped wakes
  simp only [heard?, waits, Bool.false_eq_true, if_false]
  exact ⟨notBefore, reason, quiet⟩

/-- A wait that comes to its end has heard nothing before or then. -/
private theorem unheard_of_ready
    (waits : state.phase.isDelivering = false)
    (wakes : scenario.wake state due = .ready time) :
    due = some time ∧
      ∀ moment, state.now ≤ moment → moment ≤ time →
        scenario.heard? state moment = none := by
  simp only [heard?, waits, Bool.false_eq_true, if_false]
  exact wake_eq_ready wakes

/--
An emit that is stopped ends at the first moment at which a cancellation is
heard.
-/
private theorem heard?_of_cancel_stopped
    (delivers : state.phase.isDelivering = true)
    (wakes : scenario.wakeForCancel state due = .stopped time termination) :
    state.now ≤ time ∧
      scenario.heard? state time = some termination ∧
      ∀ moment, state.now ≤ moment → moment < time →
        scenario.heard? state moment = none := by
  obtain ⟨rfl, notBefore, -, cancelled, quiet⟩ :=
    wakeForCancel_eq_stopped wakes
  refine ⟨notBefore, heard?_of_cancelled cancelled, ?_⟩
  intro moment later before
  simp [heard?, delivers, quiet moment later before]

/-- An emit that comes to its end has heard no cancellation before or then. -/
private theorem unheard_of_cancel_ready
    (delivers : state.phase.isDelivering = true)
    (wakes : scenario.wakeForCancel state due = .ready time) :
    due = some time ∧
      ∀ moment, state.now ≤ moment → moment ≤ time →
        scenario.heard? state moment = none := by
  obtain ⟨isDue, quiet⟩ := wakeForCancel_eq_ready wakes
  refine ⟨isDue, ?_⟩
  intro moment notBefore notAfter
  simp [heard?, delivers, quiet moment notBefore notAfter]

/-- A wait for the present moment takes no time when it is stopped. -/
theorem eq_max_of_stopped
    {now : Milliseconds}
    {stop : Option (Milliseconds × Termination)}
    (wakes : wakeAt (some now) stop = .stopped time termination) :
    now = max now time := by
  obtain ⟨-, notAfter⟩ := wakeAt_eq_stopped wakes
  exact (Nat.max_eq_left (notAfter now rfl)).symm

/-- A wait for the present moment takes no time. -/
theorem eq_max_of_ready
    {now : Milliseconds}
    {stop : Option (Milliseconds × Termination)}
    (wakes : wakeAt (some now) stop = .ready time) :
    now = max now time := by
  obtain ⟨due, -⟩ := wakeAt_eq_ready wakes
  rw [Option.some.inj due, Nat.max_self]

/-- A wait that a signal brings to its end. -/
private theorem Awaited.of_stopped
    {next : State}
    {events : List Event}
    (heard :
      state.now ≤ time ∧
        scenario.heard? state time = some termination ∧
        ∀ moment, state.now ≤ moment → moment < time →
          scenario.heard? state moment = none)
    (now : next.now = max state.now time)
    (phase : next.phase = .ended termination)
    (calm : ∀ event ∈ events, event.windsDown = true) :
    Awaited scenario state next events := by
  obtain ⟨notBefore, reason, quiet⟩ := heard
  rw [Nat.max_eq_right notBefore] at now
  subst now
  exact ⟨quiet, .stopped phase reason calm⟩

/-- A wait for something that comes before any signal. -/
private theorem Awaited.of_ready
    {next : State}
    {events : List Event}
    (onTime : OnTime state)
    (unheard :
      state.due? = some time ∧
        ∀ moment, state.now ≤ moment → moment ≤ time →
          scenario.heard? state moment = none)
    (now : next.now = max state.now time)
    (ends : ∀ termination, next.phase = .ended termination →
      termination = .consumerGone) :
    Awaited scenario state next events := by
  obtain ⟨due, quiet⟩ := unheard
  have notBefore : state.now ≤ time := onTime time due
  rw [Nat.max_eq_right notBefore] at now
  subst now
  refine ⟨?_, .ready due (quiet _ notBefore (Nat.le_refl _)) ends⟩
  intro moment later before
  exact quiet moment later (Nat.le_of_lt before)

end

namespace Transition

variable {scenario : Scenario}
variable {state next : State}
variable {events : List Event}

/-- How the wait of each step ends. -/
theorem awaited
    (transition : scenario.Transition state events next)
    (onTime : OnTime state) :
    Awaited scenario state next events := by
  -- A step is stopped by a signal, or it gets what it waits for without one;
  -- only the end of a delivery waits for nothing.
  cases transition with
  | attemptStopped phase wakes =>
      exact .of_stopped (heard?_of_stopped (by rw [phase]; rfl) wakes)
        (by rw [State.now_stop]; exact eq_max_of_stopped wakes)
        (State.phase_stop _ _) (by simp [Event.windsDown])
  | streamStopped phase wakes =>
      exact .of_stopped (heard?_of_stopped (by rw [phase]; rfl) wakes)
        (by rw [State.now_stop]; exact eq_max_of_stopped wakes)
        (State.phase_stop _ _) (by simp [Event.windsDown])
  | dialStopped phase wakes | readStopped phase wakes
  | pauseStopped phase wakes =>
      exact .of_stopped (heard?_of_stopped (by rw [phase]; rfl) wakes)
        (State.now_stop _ _) (State.phase_stop _ _) (by simp [Event.windsDown])
  | deliveryStopped phase next wakes =>
      exact .of_stopped (heard?_of_cancel_stopped (by rw [phase]; rfl) wakes)
        (by rw [State.now_stop]; exact eq_max_of_stopped wakes)
        (State.phase_stop _ _) (by simp [Event.windsDown])
  | emitStopped phase wakes =>
      exact .of_stopped (heard?_of_cancel_stopped (by rw [phase]; rfl) wakes)
        (State.now_stop _ _) (State.phase_stop _ _) (by simp [Event.windsDown])
  | called connect phase wakes | reading read phase wakes =>
      obtain ⟨isDue, quiet⟩ := unheard_of_ready (by rw [phase]; rfl) wakes
      exact .of_ready onTime ⟨by rw [State.due?, phase, isDue], quiet⟩
        (eq_max_of_ready wakes) (by simp)
  | refused phase wakes | opened phase wakes =>
      obtain ⟨isDue, quiet⟩ := unheard_of_ready (by rw [phase]; rfl) wakes
      exact .of_ready onTime ⟨by rw [State.due?, phase]; exact isDue, quiet⟩
        rfl (by simp [backOff])
  | dialSilent phase wakes =>
      obtain ⟨isDue, quiet⟩ := unheard_of_ready (by rw [phase]; rfl) wakes
      exact .of_ready onTime ⟨by rw [State.due?, phase]; exact isDue, quiet⟩
        rfl (by simp [State.waitUntil, phase])
  | received phase inTime wakes | readFailed phase inTime wakes
  | readEnded phase inTime wakes =>
      obtain ⟨isDue, quiet⟩ := unheard_of_ready (by rw [phase]; rfl) wakes
      exact .of_ready onTime
        ⟨by rw [State.due?, phase]; simpa [inTime] using isDue, quiet⟩
        rfl (by simp [leave, backOff])
  | readSilent phase inTime wakes =>
      obtain ⟨isDue, quiet⟩ := unheard_of_ready (by rw [phase]; rfl) wakes
      exact .of_ready onTime
        ⟨by rw [State.due?, phase]; simpa [inTime] using isDue, quiet⟩
        rfl (by simp [State.waitUntil, phase])
  | readIdle error phase late wakes idle =>
      obtain ⟨isDue, quiet⟩ := unheard_of_ready (by rw [phase]; rfl) wakes
      exact .of_ready onTime
        ⟨by rw [State.due?, phase]; simpa [late] using isDue, quiet⟩
        rfl (by simp [leave, backOff])
  | offered event phase next wakes shape =>
      obtain ⟨isDue, quiet⟩ :=
        unheard_of_cancel_ready (by rw [phase]; rfl) wakes
      exact .of_ready onTime ⟨by rw [State.due?, phase, isDue], quiet⟩
        (eq_max_of_ready wakes) (by simp)
  | accepted phase wakes takes =>
      obtain ⟨isDue, quiet⟩ :=
        unheard_of_cancel_ready (by rw [phase]; rfl) wakes
      exact .of_ready onTime ⟨by rw [State.due?, phase]; exact isDue, quiet⟩
        rfl (by simp)
  | turnedAway phase wakes gone =>
      obtain ⟨isDue, quiet⟩ :=
        unheard_of_cancel_ready (by rw [phase]; rfl) wakes
      refine .of_ready onTime ⟨by rw [State.due?, phase]; exact isDue, quiet⟩
        (State.now_stop _ _) ?_
      intro termination ended
      rw [State.phase_stop] at ended
      exact (Phase.ended.inj ended).symm
  | resumed phase wakes =>
      obtain ⟨isDue, quiet⟩ := unheard_of_ready (by rw [phase]; rfl) wakes
      cases isDue
      exact .of_ready onTime ⟨by rw [State.due?, phase], quiet⟩ rfl (by simp)
  | tooLarge phase | drained phase =>
      refine ⟨?_, .drained phase rfl rfl rfl (by simp [leave, backOff]) ?_⟩
      · intro moment later before
        exact absurd before (Nat.not_lt_of_le later)
      · simp [Event.windsDown, backoffEvent]

/-- What a session waits for is never behind it. -/
theorem onTime
    (transition : scenario.Transition state events next)
    (before : OnTime state) :
    OnTime next := by
  cases transition with
  | attemptStopped | streamStopped | dialStopped | readStopped
  | deliveryStopped | emitStopped | turnedAway | pauseStopped =>
      simp [OnTime, State.due?]
  | opened | received | drained | accepted | resumed =>
      simp [OnTime, State.due?]
  | called connect =>
      exact connect.now_le_due state.now
  | reading read =>
      intro due member
      change due ∈ ite _ _ _ at member
      split at member
      · exact read.now_le_due state.now due member
      · obtain ⟨limit, -, rfl⟩ := Option.map_eq_some_iff.mp member
        exact Nat.le_add_right _ _
  | offered =>
      intro due member
      obtain ⟨delay, -, rfl⟩ := Option.map_eq_some_iff.mp member
      exact Nat.le_add_right _ _
  | refused | readFailed | readEnded | readIdle | tooLarge =>
      rintro due ⟨⟩
      exact Nat.le_add_right _ _
  | @dialSilent due time phase wakes =>
      obtain ⟨rfl, -⟩ := wake_eq_ready wakes
      have same : (state.waitUntil time).due? = some time := by
        simp [State.due?, State.waitUntil, phase]
      have notBefore : state.now ≤ time :=
        before time (by rw [State.due?, phase]; rfl)
      rintro moment member
      rw [same] at member
      cases member
      exact Nat.max_le.mpr ⟨notBefore, Nat.le_refl _⟩
  | @readSilent due limit reads time phase inTime wakes =>
      obtain ⟨rfl, -⟩ := wake_eq_ready wakes
      have same : (state.waitUntil time).due? = some time := by
        simp [State.due?, State.waitUntil, phase, inTime]
      have notBefore : state.now ≤ time :=
        before time (by simp [State.due?, phase, inTime])
      rintro moment member
      rw [same] at member
      cases member
      exact Nat.max_le.mpr ⟨notBefore, Nat.le_refl _⟩

end Transition

namespace Transition

variable {scenario : Scenario}
variable {state next : State}
variable {events : List Event}

/-- A step at whose end a signal is heard begins nothing new. -/
theorem calm_of_heard
    (transition : scenario.Transition state events next)
    (onTime : OnTime state)
    {termination : Termination}
    (heard : scenario.heard? state next.now = some termination) :
    ∀ event ∈ events, event.windsDown = true := by
  obtain ⟨-, ending⟩ := transition.awaited onTime
  cases ending with
  | stopped phase reason calm =>
      exact calm
  | ready due unheard =>
      rw [heard] at unheard
      cases unheard
  | drained phase sameTime sameTaken goesOn running calm =>
      exact calm

/-- An event that is taken is all that its step records. -/
private theorem untaken_or_single
    (transition : scenario.Transition state events next) :
    (∀ event ∈ events, event.delivery? = none) ∨
      ∃ event, events = [.accepted event] := by
  cases transition with
  | accepted =>
      exact .inr ⟨_, rfl⟩
  | _ =>
      exact .inl (by simp [Event.delivery?, backoffEvent])

/-- Before an event its step has recorded none that is taken. -/
theorem taken_before
    (transition : scenario.Transition state events next)
    {earlier later : List Event}
    {event : Event}
    (split : events = earlier ++ event :: later) :
    (state.history ++ earlier.map (Timed.mk next.now)).deliveries.length =
      state.history.deliveries.length := by
  have untaken : earlier.filterMap Event.delivery? = [] := by
    rcases transition.untaken_or_single with untaken | ⟨taken, single⟩
    · rw [List.filterMap_eq_nil_iff]
      intro other member
      exact untaken other (by rw [split]; exact List.mem_append_left _ member)
    · rw [single] at split
      cases earlier with
      | nil =>
          rfl
      | cons first earlier =>
          simp at split
  rw [History.deliveries_append, untaken, List.append_nil]

end Transition

end Scenario

end EventRelay.Session
