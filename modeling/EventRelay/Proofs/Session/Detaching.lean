import EventRelay.Proofs.Session.Ending

namespace EventRelay.Session

/-!
# Departure of the consumer

Between two deliveries a session hears at once that its consumer has left.
While it has an event to deliver it does not: the events that are complete are
still offered, and taken if the consumer takes them.  After them the session
ends without another attempt or read.
-/

open Timing (Milliseconds)

/-- Whether an event is offered, taken, or turned away. -/
def Event.isDelivery : Event → Bool
  | .offered _ =>
      true
  | .accepted _ =>
      true
  | .turnedAway _ =>
      true
  | _ =>
      false

/-- Whether an event is being delivered, or is next to be delivered. -/
def State.owesEvent (state : State) : Bool :=
  match state.phase with
  | .delivering _ =>
      state.decoder.next.1.isSome
  | .emitting _ _ _ =>
      true
  | _ =>
      false

/-- A signal that was given stays given. -/
theorem isGiven_mono
    {moment : Option Milliseconds}
    {bound : Option Nat}
    {now later taken more : Nat}
    (notBefore : now ≤ later)
    (notFewer : taken ≤ more)
    (given : isGiven moment bound now taken = true) :
    isGiven moment bound later more = true := by
  simp only [isGiven, Bool.or_eq_true] at given ⊢
  refine given.imp ?_ ?_
  · intro come
    cases moment with
    | none =>
        cases come
    | some moment =>
        simp only [hasCome, decide_eq_true_eq] at come ⊢
        exact Nat.le_trans come notBefore
  · intro reached
    cases bound with
    | none =>
        cases reached
    | some bound =>
        simp only [hasReached, Bool.and_eq_true, decide_eq_true_eq]
          at reached ⊢
        exact ⟨reached.1, Nat.le_trans reached.2 notFewer⟩

/--
A session ends at a moment: from then on no event is taken, and it closes its
stream once if it is open.
-/
inductive EndsUntaken
    (scenario : Scenario)
    (state : State)
    (moment : Milliseconds)
    (termination : Termination) : Prop where
  | of_events {last : State} {events : List Event}
      (reaches : Reaches scenario state last)
      (phase : last.phase = .ended termination)
      (now : last.now = moment)
      (history :
        last.history = state.history ++ events.map (Timed.mk moment))
      (untaken : ∀ event, .accepted event ∉ events)
      (closes : events.count .closed = state.phase.isOpen.toNat)

/-- Where nothing new is begun, no event is taken. -/
theorem EndsAt.endsUntaken
    {scenario : Scenario}
    {state : State}
    {moment : Milliseconds}
    {termination : Termination}
    (ends : EndsAt scenario state moment termination) :
    EndsUntaken scenario state moment termination := by
  cases ends with
  | of_events reaches phase now history calm closes =>
      refine .of_events reaches phase now history ?_ closes
      intro event member
      cases calm _ member

/-- A session that ends after an event was offered ends. -/
theorem EndsUntaken.of_offered
    {scenario : Scenario}
    {state next : State}
    {event : Downstream.Event}
    {moment : Milliseconds}
    {termination : Termination}
    (transition : scenario.Transition state [.offered event] next)
    (now : next.now = moment)
    (sameStream : next.phase.isOpen = state.phase.isOpen)
    (ends : EndsUntaken scenario next moment termination) :
    EndsUntaken scenario state moment termination := by
  cases ends with
  | @of_events last events reaches phase lastNow history untaken closes =>
      have grown : last.history =
          state.history ++ (.offered event :: events).map (Timed.mk moment) := by
        rw [history, transition.history, now, List.append_assoc]
        rfl
      refine .of_events (.step transition.step?_eq reaches) phase lastNow grown
        ?_ ?_
      · simpa using untaken
      · rw [List.count_cons, closes, sameStream]
        rfl

namespace Scenario

variable {scenario : Scenario}

/-- Why a session whose consumer has left stops. -/
def departureReason
    (scenario : Scenario)
    (moment taken : Nat) : Termination :=
  if scenario.isCancelled moment taken then
    .cancelled
  else
    .consumerGone

private theorem stopReason?_of_detached
    {moment taken : Nat}
    (detached : scenario.isDetached moment taken = true) :
    scenario.stopReason? moment taken =
      some (scenario.departureReason moment taken) := by
  rw [stopReason?, departureReason, if_pos detached]
  split <;> rfl

/-- When the consumer answers, if an event is given to it as soon as may be. -/
def answerDue? (scenario : Scenario) (state : State) : Option Milliseconds :=
  match state.phase with
  | .emitting due _ _ =>
      due
  | _ =>
      (scenario.consumer.delay state.forwarded).map (state.now + ·)

/-- Whether the consumer turns away at a moment the event that it is owed. -/
def turnsAwayAt
    (scenario : Scenario)
    (state : State)
    (moment : Milliseconds) : Bool :=
  state.owesEvent && !scenario.consumer.takes state.forwarded &&
    scenario.answerDue? state == some moment

/-- Without a cancellation until then, an event is answered when it is due. -/
theorem wakeForCancel_of_not_cancelled
    {state : State}
    {due : Milliseconds}
    (notCancelled : scenario.isCancelled due state.forwarded = false) :
    scenario.wakeForCancel state (some due) = .ready due := by
  have notStopped : ∀ time termination,
      scenario.wakeForCancel state (some due) = .stopped time termination →
        False := by
    intro time termination wakes
    obtain ⟨-, -, notAfter, cancelled, -⟩ := wakeForCancel_eq_stopped wakes
    rw [isCancelled, isGiven_mono (notAfter due rfl) (Nat.le_refl _) cancelled]
      at notCancelled
    cases notCancelled
  obtain ⟨time, wakes⟩ := wakeAt_some_ready notStopped
  obtain ⟨isDue, -⟩ := wakeAt_eq_ready wakes
  obtain rfl := Option.some.inj isDue
  exact wakes

namespace Transition

variable {state next : State}
variable {events : List Event}

private theorem forwarded_le
    (transition : scenario.Transition state events next) :
    state.forwarded ≤ next.forwarded := by
  cases transition with
  | attemptStopped | dialStopped | streamStopped | readStopped
  | deliveryStopped | emitStopped | turnedAway | pauseStopped =>
      simp [State.attempt, State.record, State.waitUntil]
  | accepted =>
      exact Nat.le_succ _
  | _ =>
      exact Nat.le_refl _

/-- A consumer that has left has left after the next step. -/
theorem isDetached
    (transition : scenario.Transition state events next)
    (detached : scenario.isDetached state.now state.forwarded = true) :
    scenario.isDetached next.now next.forwarded = true :=
  isGiven_mono transition.now_le transition.forwarded_le detached

/-- Once the consumer has left, a step at most deals with an event. -/
theorem delivers_or_calm_of_detached
    (transition : scenario.Transition state events next)
    (onTime : OnTime state)
    (detached : scenario.isDetached next.now state.forwarded = true) :
    ∀ event ∈ events,
      event.windsDown = true ∨ event.isDelivery = true := by
  by_cases delivers : state.phase.isDelivering = true
  · cases transition with
    | deliveryStopped | offered | tooLarge | drained | emitStopped | accepted
    | turnedAway =>
        simp [Event.windsDown, Event.isDelivery, backoffEvent]
    | _ =>
        rw [‹state.phase = _›] at delivers
        cases delivers
  · have heard :
        scenario.heard? state next.now =
          some (scenario.departureReason next.now state.forwarded) := by
      rw [heard?, if_neg delivers]
      exact stopReason?_of_detached detached
    intro event member
    exact .inl (transition.calm_of_heard onTime heard event member)

/-- With an event to deliver, a step deals with it or is cancelled. -/
theorem delivers_or_cancelled
    (transition : scenario.Transition state events next)
    (owes : state.owesEvent = true) :
    (∃ event ∈ events, event.windsDown = false) ∨
      scenario.isCancelled next.now state.forwarded = true := by
  cases transition with
  | offered | accepted | turnedAway =>
      exact .inl ⟨_, List.mem_cons_self, rfl⟩
  | tooLarge phase takes | drained phase takes =>
      simp [State.owesEvent, phase, takes] at owes
  | deliveryStopped phase takes wakes =>
      obtain ⟨-, notBefore, notAfter, cancelled, -⟩ :=
        wakeForCancel_eq_stopped wakes
      rw [Nat.le_antisymm (notAfter _ rfl) notBefore] at cancelled
      rw [State.now_stop]
      exact .inr cancelled
  | emitStopped phase wakes =>
      obtain ⟨-, notBefore, -, cancelled, -⟩ := wakeForCancel_eq_stopped wakes
      rw [← Nat.max_eq_right notBefore] at cancelled
      rw [State.now_stop]
      exact .inr cancelled
  | _ =>
      rw [State.owesEvent, ‹state.phase = _›] at owes
      cases owes

end Transition

/-- With nothing to deliver, a delivery comes to its end at once. -/
private theorem exists_drained
    {state : State}
    (delivers : state.phase.isDelivering = true)
    (settled : state.owesEvent = false) :
    ∃ events next,
      scenario.Transition state events next ∧
        next.now = state.now ∧
        next.forwarded = state.forwarded ∧
        next.phase.isDelivering = false ∧
        (∀ termination, next.phase ≠ .ended termination) ∧
        ∀ event ∈ events, event.windsDown = true := by
  cases phase : state.phase with
  | delivering reads =>
      rcases takes : state.decoder.next with ⟨found, decoder⟩
      simp only [State.owesEvent, phase, takes, Option.isSome_eq_false_iff,
        Option.isNone_iff_eq_none] at settled
      subst settled
      cases capacity : decoder.checkCapacity with
      | error error =>
          exact ⟨_, _, .tooLarge phase takes capacity, rfl, rfl, rfl,
            by simp [leave, backOff],
            by simp [Event.windsDown, backoffEvent]⟩
      | ok =>
          exact ⟨_, _, .drained phase takes capacity, rfl, rfl, rfl,
            by simp, by simp⟩
  | emitting due event reads =>
      rw [State.owesEvent, phase] at settled
      cases settled
  | _ =>
      rw [phase] at delivers
      cases delivers

namespace StandsAt

variable {state : State}
variable {moment : Milliseconds}

/-- Between deliveries the departure ends the session when it happens. -/
theorem endsAt_of_settled
    (stands : scenario.StandsAt state moment)
    (onTime : OnTime state)
    (settled : state.owesEvent = false)
    (detached : scenario.isDetached moment state.forwarded = true) :
    EndsAt scenario state moment
      (scenario.departureReason moment state.forwarded) := by
  by_cases delivers : state.phase.isDelivering = true
  · obtain ⟨events, next, transition, now, sameTaken, waits, running, calm⟩ :=
      exists_drained delivers settled
    have present : state.now = moment :=
      Nat.le_antisymm stands.notPast
        (now ▸ stands.nothingBefore next transition.step?_eq)
    rw [present] at now
    rw [← now, ← sameTaken] at detached ⊢
    exact .of_calm_step transition rfl calm
      ((StandsAt.present running).endsAt_of_waiting (transition.onTime onTime)
        waits (stopReason?_of_detached detached))
  · exact stands.endsAt_of_waiting onTime (eq_false_of_ne_true delivers)
      (stopReason?_of_detached detached)

/-- An end at a moment begins with a step at that moment. -/
theorem exists_first_step
    (stands : scenario.StandsAt state moment)
    {last : State}
    {events : List Event}
    {termination : Termination}
    (reaches : Reaches scenario state last)
    (phase : last.phase = .ended termination)
    (now : last.now = moment)
    (history :
      last.history = state.history ++ events.map (Timed.mk moment)) :
    ∃ first next later,
      scenario.Transition state first next ∧
        next.now = moment ∧
        Reaches scenario next last ∧
        events = first ++ later ∧
        last.history = next.history ++ later.map (Timed.mk moment) := by
  cases reaches with
  | refl =>
      exact (stands.running termination phase).elim
  | @step _ next _ steps rest =>
      obtain ⟨first, transition⟩ := Transition.of_step? steps
      have present : next.now = moment :=
        Nat.le_antisymm (now ▸ rest.now_le) (stands.nothingBefore next steps)
      obtain ⟨more, grown⟩ := rest.history_prefix
      have shape : events.map (Timed.mk moment) =
          first.map (Timed.mk moment) ++ more := by
        rw [history, transition.history, present, List.append_assoc,
          List.append_cancel_left_eq] at grown
        exact grown.symm
      obtain ⟨same, later, rfl, isFirst, rfl⟩ := List.map_eq_append_iff.mp shape
      obtain rfl : same = first :=
        (List.map_inj_right fun _ _ equal => (Timed.mk.inj equal).2).mp isFirst
      exact ⟨same, next, later, transition, present, rest, rfl, grown.symm⟩

/-- With an event to deliver only a cancellation ends it when it happens. -/
theorem cancelled_of_endsAt
    (stands : scenario.StandsAt state moment)
    (owes : state.owesEvent = true)
    {termination : Termination}
    (ends : EndsAt scenario state moment termination) :
    scenario.isCancelled moment state.forwarded = true := by
  cases ends with
  | of_events reaches phase now history calm =>
      obtain ⟨first, next, later, transition, present, -, rfl, -⟩ :=
        stands.exists_first_step reaches phase now history
      rcases transition.delivers_or_cancelled owes with
          ⟨event, member, busy⟩ | cancelled
      · rw [calm event (List.mem_append_left later member)] at busy
        cases busy
      · rw [← present]
        exact cancelled

/--
An event that is given to the consumer is answered when it is due, unless the
session is cancelled.
-/
private theorem answer_of_emitting
    (stands : scenario.StandsAt state moment)
    (onTime : OnTime state)
    {due : Option Milliseconds}
    {event : Downstream.Event}
    {reads : List TimedRead}
    (emitting : state.phase = .emitting due event reads)
    (notCancelled : scenario.isCancelled moment state.forwarded = false)
    {last : State}
    {events : List Event}
    {termination : Termination}
    (reaches : Reaches scenario state last)
    (phase : last.phase = .ended termination)
    (now : last.now = moment)
    (history : last.history = state.history ++ events.map (Timed.mk moment))
    (untaken : ∀ event, .accepted event ∉ events) :
    due = some moment ∧ scenario.consumer.takes state.forwarded = false := by
  obtain ⟨first, next, later, transition, present, -, rfl, -⟩ :=
    stands.exists_first_step reaches phase now history
  cases transition with
  | emitStopped isPhase wakes =>
      obtain ⟨-, notBefore, -, cancelled, -⟩ := wakeForCancel_eq_stopped wakes
      rw [State.now_stop] at present
      rw [(Nat.max_eq_right notBefore).symm.trans present, notCancelled]
        at cancelled
      cases cancelled
  | accepted isPhase =>
      exact absurd (List.mem_append_left later (List.mem_singleton_self _))
        (untaken _)
  | turnedAway isPhase wakes gone =>
      cases emitting.symm.trans isPhase
      obtain ⟨rfl, -⟩ := wakeForCancel_eq_ready wakes
      have notBefore := onTime _ (by rw [State.due?, emitting]; rfl)
      rw [State.now_stop] at present
      exact ⟨congrArg some ((Nat.max_eq_right notBefore).symm.trans present),
        gone⟩
  | _ =>
      cases emitting.symm.trans ‹state.phase = _›

/--
Uncancelled, a session takes the event that it owes or ends later, unless the
consumer turns the event away.
-/
theorem turnsAwayAt_of_endsUntaken
    (stands : scenario.StandsAt state moment)
    (onTime : OnTime state)
    (owes : state.owesEvent = true)
    (notCancelled : scenario.isCancelled moment state.forwarded = false)
    {termination : Termination}
    (ends : EndsUntaken scenario state moment termination) :
    scenario.turnsAwayAt state moment = true := by
  suffices answers : scenario.answerDue? state = some moment ∧
      scenario.consumer.takes state.forwarded = false by
    rw [turnsAwayAt, owes, answers.1, answers.2]
    exact beq_self_eq_true (some moment)
  cases ends with
  | of_events reaches phase now history untaken =>
      cases isPhase : state.phase with
      | emitting due event reads =>
          rw [answerDue?, isPhase]
          exact stands.answer_of_emitting onTime isPhase notCancelled reaches
            phase now history untaken
      | delivering reads =>
          obtain ⟨first, next, later, transition, present, rest, rfl, grown⟩ :=
            stands.exists_first_step reaches phase now history
          have stillOnTime := transition.onTime onTime
          cases transition with
          | offered event =>
              rw [answerDue?, isPhase]
              subst present
              exact (StandsAt.present (by rintro _ ⟨⟩)).answer_of_emitting
                stillOnTime rfl notCancelled rest phase now grown
                fun event member =>
                  untaken event (List.mem_append_right _ member)
          | deliveryStopped _ _ wakes =>
              obtain ⟨-, notBefore, notAfter, cancelled, -⟩ :=
                wakeForCancel_eq_stopped wakes
              rw [State.now_stop] at present
              subst present
              rw [← Nat.le_antisymm notBefore (notAfter _ rfl)] at cancelled
              cases notCancelled.symm.trans cancelled
          | tooLarge _ none | drained _ none =>
              rw [State.owesEvent, isPhase, none] at owes
              cases owes
          | _ =>
              cases isPhase.symm.trans ‹state.phase = _›
      | _ =>
          rw [State.owesEvent, isPhase] at owes
          cases owes

/-- A session whose consumer turns an event away ends at that moment. -/
private theorem endsUntaken_of_emitting
    {event : Downstream.Event}
    {reads : List TimedRead}
    (emitting : state.phase = .emitting (some moment) event reads)
    (notBefore : state.now ≤ moment)
    (notCancelled : scenario.isCancelled moment state.forwarded = false)
    (gone : scenario.consumer.takes state.forwarded = false) :
    EndsUntaken scenario state moment .consumerGone := by
  have turned := Transition.turnedAway emitting
    (wakeForCancel_of_not_cancelled notCancelled) gone
  have now :
      (((state.waitUntil moment).record (.turnedAway event)).stop
        .consumerGone).now = moment := by
    rw [State.now_stop]
    exact Nat.max_eq_right notBefore
  have history := turned.history
  rw [now] at history
  refine .of_events (.of_transition turned) (State.phase_stop _ _) now history
    (by simp) ?_
  rw [emitting]
  rfl

private theorem endsUntaken_of_turnsAwayAt
    (stands : scenario.StandsAt state moment)
    (notCancelled : scenario.isCancelled moment state.forwarded = false)
    (turnsAway : scenario.turnsAwayAt state moment = true) :
    EndsUntaken scenario state moment .consumerGone := by
  simp only [turnsAwayAt, Bool.and_eq_true, Bool.not_eq_true', beq_iff_eq]
    at turnsAway
  obtain ⟨⟨owes, gone⟩, due⟩ := turnsAway
  cases isPhase : state.phase with
  | emitting next event reads =>
      rw [answerDue?, isPhase] at due
      obtain rfl : next = some moment := due
      exact endsUntaken_of_emitting isPhase stands.notPast notCancelled gone
  | delivering reads =>
      rcases takes : state.decoder.next with ⟨found, decoder⟩
      rw [State.owesEvent, isPhase, takes] at owes
      obtain ⟨frame, rfl⟩ := Option.isSome_iff_exists.mp owes
      have notCancelledNow :
          scenario.isCancelled state.now state.forwarded = false := by
        refine eq_false_of_ne_true fun cancelled => ?_
        rw [isCancelled,
          isGiven_mono stands.notPast (Nat.le_refl _) cancelled] at notCancelled
        cases notCancelled
      have offered := Transition.offered
        ⟨Downstream.messageName, frame.data⟩ isPhase takes
        (wakeForCancel_of_not_cancelled notCancelledNow) rfl
      have notBefore := stands.nothingBefore _ offered.step?_eq
      have present : state.now = moment :=
        Nat.le_antisymm stands.notPast notBefore
      rw [answerDue?, isPhase] at due
      exact .of_offered offered present (by rw [isPhase]; rfl)
        (endsUntaken_of_emitting (congrArg (Phase.emitting · _ _) due)
          stands.notPast notCancelled gone)
  | _ =>
      rw [State.owesEvent, isPhase] at owes
      cases owes

end StandsAt

end Scenario

namespace Reaches

variable {scenario : Scenario}
variable {state : State}

/-- Once the consumer has left, a session at most deals with events. -/
theorem delivers_or_calm_of_detached
    (reaches : Reaches scenario scenario.initial state)
    {before after : History}
    {time : Milliseconds}
    {event : Event}
    (split : state.history = before ++ ⟨time, event⟩ :: after)
    (detached : scenario.isDetached time before.deliveries.length = true) :
    event.windsDown = true ∨ event.isDelivery = true := by
  rcases reaches.recorded_by_step split with
      rfl | ⟨origin, next, events, toOrigin, transition, member, rfl, taken⟩
  · exact .inl rfl
  · rw [taken] at detached
    exact transition.delivers_or_calm_of_detached toOrigin.onTime detached
      event member

/-- A session whose consumer has left is not stuck if events are taken. -/
private theorem exists_step_of_detached
    (reaches : Reaches scenario scenario.initial state)
    (patient : ∀ taken, scenario.consumer.delay taken ≠ none)
    (detached : scenario.isDetached state.now state.forwarded = true)
    (running : ∀ termination, state.phase ≠ .ended termination) :
    ∃ next, scenario.step? state = some next := by
  refine Option.ne_none_iff_exists'.mp fun stuck => ?_
  obtain ⟨notDue, unheard⟩ := Scenario.never_of_stuck stuck running
  have heardNone := unheard state.now
  cases phase : state.phase with
  | delivering reads =>
      simp [State.due?, phase] at notDue
  | emitting due event reads =>
      rw [State.due?, phase] at notDue
      subst notDue
      obtain ⟨taken, never⟩ := reaches.planned.emitting event reads phase
      exact patient taken never
  | _ =>
      rw [Scenario.heard?, phase] at heardNone
      change scenario.stopReason? state.now state.forwarded = none at heardNone
      rw [Scenario.stopReason?_of_detached detached] at heardNone
      cases heardNone

/-- A session whose consumer has left ends if it has nothing to deliver. -/
private theorem exists_end_of_settled
    (reaches : Reaches scenario scenario.initial state)
    (settled : state.owesEvent = false)
    (detached : scenario.isDetached state.now state.forwarded = true) :
    ∃ last termination,
      Reaches scenario state last ∧ last.phase = .ended termination := by
  by_cases running : ∀ termination, state.phase ≠ .ended termination
  · have ends := (Scenario.StandsAt.present running).endsAt_of_settled
      reaches.onTime settled detached
    cases ends with
    | of_events toLast phase =>
        exact ⟨_, _, toLast, phase⟩
  · obtain ⟨termination, phase⟩ := Classical.not_forall_not.mp running
    exact ⟨state, termination, .refl state, phase⟩

/-- A session whose consumer has left ends if events are taken. -/
private theorem exists_end_of_detached
    {state : State}
    (reaches : Reaches scenario scenario.initial state)
    (patient : ∀ taken, scenario.consumer.delay taken ≠ none)
    (detached : scenario.isDetached state.now state.forwarded = true) :
    ∃ last termination,
      Reaches scenario state last ∧ last.phase = .ended termination := by
  -- With nothing left to deliver the departure is heard; until then each step
  -- does some of the work, since no wait begins during a delivery.
  by_cases settled : state.owesEvent = false
  · exact reaches.exists_end_of_settled settled detached
  · have running : ∀ termination, state.phase ≠ .ended termination := by
      intro termination phase
      rw [State.owesEvent, phase] at settled
      exact settled rfl
    obtain ⟨next, steps⟩ :=
      reaches.exists_step_of_detached patient detached running
    obtain ⟨events, transition⟩ := Scenario.Transition.of_step? steps
    have toNext := reaches.trans (.of_transition transition)
    have stillDetached := transition.isDetached detached
    by_cases settledNext : next.owesEvent = false
    · obtain ⟨last, termination, toLast, phase⟩ :=
        toNext.exists_end_of_settled settledNext stillDetached
      exact ⟨last, termination, .step steps toLast, phase⟩
    · have less : scenario.work next < scenario.work state := by
        have goesOn : ∀ termination, next.phase ≠ .ended termination := by
          intro termination phase
          rw [State.owesEvent, phase] at settledNext
          exact settledNext rfl
        rcases transition.work_lt reaches.planned goesOn with
            ⟨less, -⟩ | ⟨pauses, -⟩
        · exact less
        · rw [State.owesEvent, pauses] at settledNext
          exact (settledNext rfl).elim
      obtain ⟨last, termination, toLast, phase⟩ :=
        toNext.exists_end_of_detached patient stillDetached
      exact ⟨last, termination, .step steps toLast, phase⟩
termination_by scenario.work state

end Reaches

/-- What the departure of its consumer means to a session. -/
structure Departure (scenario : Scenario) (state : State) : Prop where
  /-- With nothing new begun, not even an offer, the session ends when the
      consumer leaves exactly if it has no event to deliver or is cancelled. -/
  endsIff :
    ∀ moment,
      scenario.StandsAt state moment →
      scenario.isDetached moment state.forwarded = true →
      (EndsAt scenario state moment
          (if scenario.isCancelled moment state.forwarded then
            .cancelled
          else
            .consumerGone) ↔
        state.owesEvent = false ∨
          scenario.isCancelled moment state.forwarded = true)
  /-- With no further event taken, it ends when the consumer leaves exactly if,
      besides, the consumer turns an event away at that very moment. -/
  untakenIff :
    ∀ moment,
      scenario.StandsAt state moment →
      scenario.isDetached moment state.forwarded = true →
      (EndsUntaken scenario state moment
          (if scenario.isCancelled moment state.forwarded then
            .cancelled
          else
            .consumerGone) ↔
        state.owesEvent = false ∨
          scenario.isCancelled moment state.forwarded = true ∨
            scenario.turnsAwayAt state moment = true)
  /-- Once the consumer has left there is no attempt and no read, but an event
      that is complete is still offered and may be taken. -/
  delivers :
    ∀ (before after : History) time event,
      state.history = before ++ ⟨time, event⟩ :: after →
      scenario.isDetached time before.deliveries.length = true →
      event.windsDown = true ∨ event.isDelivery = true
  /-- Once the consumer has left the session ends if every offer is answered. -/
  ends :
    (∀ taken, scenario.consumer.delay taken ≠ none) →
    scenario.isDetached state.now state.forwarded = true →
    ∃ last termination,
      Reaches scenario state last ∧ last.phase = .ended termination

/--
When its consumer leaves, a session ends at that moment exactly if it has no
event to deliver or is cancelled, or else if the consumer turns the event away
at once.  From then on it makes no attempt and reads nothing, but an event that
is complete is still offered and may be taken.  It ends if the consumer answers
every offer.
-/
theorem departure_heard_between_deliveries
    {scenario : Scenario}
    {state : State}
    (reaches : Reaches scenario scenario.initial state) :
    Departure scenario state := by
  have endsAt {moment : Milliseconds}
      (stands : scenario.StandsAt state moment)
      (detached : scenario.isDetached moment state.forwarded = true)
      (heard : state.owesEvent = false ∨
        scenario.isCancelled moment state.forwarded = true) :
      EndsAt scenario state moment
        (scenario.departureReason moment state.forwarded) := by
    rcases heard with settled | cancelled
    · exact stands.endsAt_of_settled reaches.onTime settled detached
    · rw [Scenario.departureReason, if_pos cancelled]
      exact stands.endsAt reaches.onTime
        (Scenario.heard?_of_cancelled cancelled)
  refine ⟨?endsIff, ?untakenIff, ?delivers, reaches.exists_end_of_detached⟩
  case endsIff =>
    intro moment stands detached
    refine ⟨fun ends => ?_, endsAt stands detached⟩
    by_cases settled : state.owesEvent = false
    · exact .inl settled
    · exact .inr (stands.cancelled_of_endsAt
        (Bool.of_not_eq_false settled) ends)
  case untakenIff =>
    intro moment stands detached
    constructor
    · intro ends
      by_cases settled : state.owesEvent = false
      · exact .inl settled
      · refine .inr (Classical.or_iff_not_imp_left.mpr fun notCancelled => ?_)
        exact stands.turnsAwayAt_of_endsUntaken reaches.onTime
          (Bool.of_not_eq_false settled) (eq_false_of_ne_true notCancelled) ends
    · rintro (settled | cancelled | turnsAway)
      · exact (endsAt stands detached (.inl settled)).endsUntaken
      · exact (endsAt stands detached (.inr cancelled)).endsUntaken
      · by_cases cancelled : scenario.isCancelled moment state.forwarded = true
        · exact (endsAt stands detached (.inr cancelled)).endsUntaken
        · rw [if_neg cancelled]
          exact stands.endsUntaken_of_turnsAwayAt
            (eq_false_of_ne_true cancelled) turnsAway
  case delivers =>
    intro before after time event split detached
    exact reaches.delivers_or_calm_of_detached split detached

/-- A session whose consumer leaves after the first of two events. -/
def leavingAfterOne : Scenario :=
  { Scenario.reconnecting with
    connects :=
      [⟨0, .opened
        [⟨0, .chunk (Text.Utf8.bytesOf "data: a\n\ndata: b\n\n")⟩]⟩]
    consumer := { Consumer.eager with detachAfter := some 1 } }

/-- The second event is taken after the consumer has left. -/
theorem event_taken_after_departure :
    ∃ before after : History,
      (leavingAfterOne.stateAt 0).history =
          before ++ ⟨0, .accepted ⟨Downstream.messageName, "b"⟩⟩ :: after ∧
        leavingAfterOne.isDetached 0 before.deliveries.length = true := by
  let history := (leavingAfterOne.stateAt 0).history
  exact ⟨history.take 9, history.drop 10, by decide +kernel,
    by decide +kernel⟩

/-- A session whose consumer leaves while it waits to connect again. -/
def leavingWhilePausing : Scenario :=
  { Scenario.reconnecting with
    consumer := { Consumer.eager with detachAt := some 2 } }

/--
A session whose consumer leaves while an event is offered to it, and turns the
event away at that moment.
-/
def leavingWhileOffered : Scenario :=
  { leavingAfterOne with
    consumer := ⟨fun _ => some 3, fun _ => false, some 3, none⟩ }

/--
A departure during a wait, or together with a refusal, ends the session when
it happens.
-/
theorem departures_that_are_heard :
    EndsAt leavingWhilePausing (leavingWhilePausing.stateAt 1) 2
        .consumerGone ∧
      EndsUntaken leavingWhileOffered (leavingWhileOffered.stateAt 0) 3
        .consumerGone := by
  have pausing := departure_heard_between_deliveries
    (leavingWhilePausing.reaches_stateAt 1)
  have offered := departure_heard_between_deliveries
    (leavingWhileOffered.reaches_stateAt 0)
  exact ⟨(pausing.endsIff 2 (.of_step (by decide +kernel)) rfl).mpr
      (.inl (by decide +kernel)),
    (offered.untakenIff 3 (.of_step (by decide +kernel)) rfl).mpr
      (.inr (.inr (by decide +kernel)))⟩

end EventRelay.Session
