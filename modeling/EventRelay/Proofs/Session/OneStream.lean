import EventRelay.Proofs.Session.Reachable

namespace EventRelay.Session

/-!
# One stream at a time

A list of events is checked in one pass that remembers whether a stream is
open.  Every transition passes the check and leaves the stream as open as its
phase says.  From the check it follows that openings and closings alternate,
that the source is called only between streams, and that streams are read and
events delivered only while one is open.
-/

open Timing (Milliseconds)

namespace Event

/-- Whether an event opens a stream, or closes one. -/
def switch? : Event → Option Bool
  | .opened _ =>
      some true
  | .closed =>
      some false
  | _ =>
      none

/-- Whether an event is a read of the source, or an event for the consumer. -/
def usesStream : Event → Bool
  | .reading =>
      true
  | .received _ =>
      true
  | .offered _ =>
      true
  | .accepted _ =>
      true
  | .turnedAway _ =>
      true
  | _ =>
      false

end Event

namespace History

/-- The openings and closings of a history in order, openings as `true`. -/
def switches (history : History) : List Bool :=
  history.filterMap (·.event.switch?)

/-- The number of streams opened. -/
def openings (history : History) : Nat :=
  history.switches.count true

/-- The number of times a stream was closed. -/
def closings (history : History) : Nat :=
  history.switches.count false

private theorem switches_append
    (history : History)
    (now : Milliseconds)
    (events : List Event) :
    switches (history ++ events.map (Timed.mk now)) =
      history.switches ++ events.filterMap Event.switch? := by
  rw [switches, List.filterMap_append, List.filterMap_map]
  rfl

theorem openings_append
    (history : History)
    (now : Milliseconds)
    (events : List Event) :
    openings (history ++ events.map (Timed.mk now)) =
      history.openings + (events.filterMap Event.switch?).count true := by
  rw [openings, switches_append, List.count_append]
  rfl

theorem closings_append
    (history : History)
    (now : Milliseconds)
    (events : List Event) :
    closings (history ++ events.map (Timed.mk now)) =
      history.closings + (events.filterMap Event.switch?).count false := by
  rw [closings, switches_append, List.count_append]
  rfl

end History

/-- A history in which there is never more than one stream. -/
structure OneStream (history : History) : Prop where
  /-- Openings and closings alternate, and the first is an opening. -/
  alternate :
    ∀ index switch, history.switches[index]? = some switch →
      switch = (index % 2 == 0)
  /-- The source is called only while no stream is open. -/
  called :
    ∀ before time after, history = before ++ ⟨time, .called⟩ :: after →
      History.openings before = History.closings before
  /-- A stream is open whenever one is read and an event is delivered. -/
  used :
    ∀ before timed after, history = before ++ timed :: after →
      timed.event.usesStream = true →
      History.openings before = History.closings before + 1

/-- Whether a stream is open after an event, if the event is in order. -/
def streamAfter? (isOpen : Bool) : Event → Option Bool
  | .opened _ =>
      if isOpen then none else some true
  | .closed =>
      if isOpen then some false else none
  | .called =>
      if isOpen then none else some false
  | event =>
      if event.usesStream && !isOpen then none else some isOpen

/-- Whether a stream is open after a list of events in order. -/
def streamAfterAll? (isOpen : Bool) (events : List Event) : Option Bool :=
  events.foldlM streamAfter? isOpen

/-- A list is in order if its first part and then its second part are. -/
theorem streamAfterAll?_append
    (isOpen : Bool)
    (first second : List Event) :
    streamAfterAll? isOpen (first ++ second) =
      (streamAfterAll? isOpen first).bind (streamAfterAll? · second) := by
  simp [streamAfterAll?, List.foldlM_append]

/-- An event in order does not change whether a stream is open, or switches it. -/
theorem streamAfter?_cases
    {isOpen last : Bool}
    {event : Event}
    (inOrder : streamAfter? isOpen event = some last) :
    (event.switch? = none ∧ last = isOpen) ∨
      (event.switch? = some last ∧ isOpen = !last) := by
  cases event with
  | opened attempt =>
      cases isOpen <;> simp_all [streamAfter?, Event.switch?]
  | closed =>
      cases isOpen <;> simp_all [streamAfter?, Event.switch?]
  | called =>
      cases isOpen <;> simp_all [streamAfter?, Event.switch?]
  | _ =>
      cases isOpen <;>
        simp_all [streamAfter?, Event.switch?, Event.usesStream]

namespace History

/-- Openings and closings of a history in order differ by the open stream. -/
theorem openings_eq
    {history : History}
    {isOpen last : Bool}
    (inOrder : streamAfterAll? isOpen history.events = some last) :
    history.openings + isOpen.toNat = history.closings + last.toNat := by
  induction history generalizing isOpen with
  | nil =>
      cases inOrder
      rfl
  | cons timed rest inductionHypothesis =>
      obtain ⟨next, first, later⟩ := Option.bind_eq_some_iff.mp inOrder
      have counted := inductionHypothesis later
      unfold openings closings switches at counted ⊢
      rcases streamAfter?_cases first with
          ⟨noSwitch, rfl⟩ | ⟨switches, rfl⟩
      · simpa [List.filterMap_cons, noSwitch] using counted
      · simp only [List.filterMap_cons, switches, List.count_cons]
        cases next <;> simp at counted ⊢ <;> omega

/-- Openings and closings of a history in order alternate. -/
private theorem switches_alternate
    {history : History}
    {isOpen last : Bool}
    (inOrder : streamAfterAll? isOpen history.events = some last)
    {index : Nat}
    {switch : Bool}
    (found : history.switches[index]? = some switch) :
    switch = ((index % 2 == 0) != isOpen) := by
  induction history generalizing isOpen index with
  | nil =>
      simp [switches] at found
  | cons timed rest inductionHypothesis =>
      obtain ⟨next, first, later⟩ := Option.bind_eq_some_iff.mp inOrder
      unfold switches at found inductionHypothesis
      rcases streamAfter?_cases first with
          ⟨noSwitch, rfl⟩ | ⟨switches, rfl⟩
      · simp only [List.filterMap_cons, noSwitch] at found
        exact inductionHypothesis later found
      · simp only [List.filterMap_cons, switches] at found
        cases index with
        | zero =>
            simp only [List.getElem?_cons_zero, Option.some.injEq] at found
            subst found
            cases next <;> rfl
        | succ index =>
            rw [List.getElem?_cons_succ] at found
            rw [inductionHypothesis later found]
            rcases Nat.mod_two_eq_zero_or_one index with even | odd
            · have next : (index + 1) % 2 = 1 := by omega
              simp [even, next]
            · have next : (index + 1) % 2 = 0 := by omega
              simp [odd, next]

end History

/-- The events before one of a history in order are in order themselves. -/
private theorem streamAfter?_of_split
    {before after : History}
    {timed : Timed}
    {last : Bool}
    (inOrder :
      streamAfterAll? false (before ++ timed :: after).events = some last) :
    ∃ isOpen next,
      before.openings = before.closings + isOpen.toNat ∧
        streamAfter? isOpen timed.event = some next := by
  unfold History.events at inOrder
  rw [List.map_append, streamAfterAll?_append] at inOrder
  obtain ⟨isOpen, earlier, later⟩ := Option.bind_eq_some_iff.mp inOrder
  obtain ⟨next, present, -⟩ := Option.bind_eq_some_iff.mp later
  exact ⟨isOpen, next, by simpa using History.openings_eq earlier, present⟩

/-- A history in order has one stream at a time. -/
theorem OneStream.of_check
    {history : History}
    {last : Bool}
    (inOrder : streamAfterAll? false history.events = some last) :
    OneStream history where
  alternate index switch found := by
    simpa using History.switches_alternate inOrder found
  called before time after split := by
    subst split
    obtain ⟨isOpen, next, counted, present⟩ := streamAfter?_of_split inOrder
    cases isOpen with
    | false =>
        exact counted
    | true =>
        simp [streamAfter?] at present
  used before timed after split uses := by
    subst split
    obtain ⟨isOpen, next, counted, present⟩ := streamAfter?_of_split inOrder
    cases isOpen with
    | true =>
        exact counted
    | false =>
        cases shape : timed.event <;>
          simp_all [streamAfter?, Event.usesStream]

namespace Scenario.Transition

/-- A transition is in order and leaves the stream as its phase says. -/
theorem streamAfterAll?_eq
    {scenario : Scenario}
    {state next : State}
    {events : List Event}
    (transition : scenario.Transition state events next) :
    streamAfterAll? state.phase.isOpen events = some next.phase.isOpen := by
  cases transition with
  | attemptStopped phase | streamStopped phase | dialStopped phase
  | readStopped phase | deliveryStopped phase | emitStopped phase
  | turnedAway phase | pauseStopped phase =>
      rw [phase, State.phase_stop]
      rfl
  | dialSilent phase | readSilent phase =>
      rfl
  | called _ phase | reading _ phase | refused phase | opened phase
  | received phase | readFailed phase | readEnded phase | readIdle _ phase
  | offered _ phase | tooLarge phase | drained phase | accepted phase
  | resumed phase =>
      rw [phase]
      rfl

/-- Turning away an event is the end of the session. -/
theorem of_turnedAway
    {scenario : Scenario}
    {state next : State}
    {events : List Event}
    {event : Downstream.Event}
    (transition : scenario.Transition state events next)
    (member : .turnedAway event ∈ events) :
    events =
        [.turnedAway event, .closed,
          .ended .consumerGone state.attempts state.forwarded] ∧
      next.phase = .ended .consumerGone := by
  cases transition with
  | turnedAway phase wakes gone =>
      simp only [List.mem_cons, Event.turnedAway.injEq, reduceCtorEq,
        List.not_mem_nil, or_self, or_false] at member
      subst member
      exact ⟨rfl, State.phase_stop _ _⟩
  | _ =>
      simp [backoffEvent] at member

/-- What is recorded when the session ends: a close if a stream is open. -/
theorem of_ended
    {scenario : Scenario}
    {state next : State}
    {events : List Event}
    {termination : Termination}
    (transition : scenario.Transition state events next)
    (phase : next.phase = .ended termination) :
    ∃ cause attempts forwarded,
      events =
          cause ++ (if state.phase.isOpen then [.closed] else []) ++
            [.ended termination attempts forwarded] ∧
        (cause = [] ∨
          cause = [.attempted attempts] ∨
          ∃ event, cause = [.turnedAway event]) := by
  cases transition with
  | attemptStopped before =>
      rw [State.phase_stop] at phase
      cases phase
      exact ⟨[_], _, _, by rw [before]; rfl, .inr (.inl rfl)⟩
  | dialStopped before | streamStopped before | readStopped before
  | deliveryStopped before | emitStopped before | pauseStopped before =>
      rw [State.phase_stop] at phase
      cases phase
      exact ⟨[], _, _, by rw [before]; rfl, .inl rfl⟩
  | turnedAway before =>
      rw [State.phase_stop] at phase
      cases phase
      exact ⟨[_], _, _, by rw [before]; rfl, .inr (.inr ⟨_, rfl⟩)⟩
  | dialSilent before | readSilent before =>
      rw [State.waitUntil, before] at phase
      cases phase
  | _ =>
      cases phase

end Scenario.Transition

/-- The history of a reachable state is in order. -/
theorem Reaches.streamAfterAll?_eq
    {scenario : Scenario}
    {state : State}
    (reaches : Reaches scenario scenario.initial state) :
    streamAfterAll? false state.history.events =
      some state.phase.isOpen := by
  refine reaches.invariant
    (fun state =>
      streamAfterAll? false state.history.events = some state.phase.isOpen)
    ?_ rfl
  intro state events next transition inOrder
  rw [transition.history_events, streamAfterAll?_append, inOrder]
  exact transition.streamAfterAll?_eq

/-- After a consumer turned out to be gone, the stream is closed, no more. -/
theorem Reaches.of_turnedAway
    {scenario : Scenario}
    {state : State}
    (reaches : Reaches scenario scenario.initial state)
    {before after : History}
    {time : Milliseconds}
    {event : Downstream.Event}
    (split : state.history = before ++ ⟨time, .turnedAway event⟩ :: after) :
    ∃ attempts forwarded,
      after =
        [⟨time, .closed⟩,
          ⟨time, .ended .consumerGone attempts forwarded⟩] := by
  obtain ⟨origin, next, lead, later, continued, -, transition, fromNext, rfl,
      -, afterShape, grown⟩ :=
    reaches.recorded_after_start split (by simp)
  obtain ⟨shape, phase⟩ :=
    transition.of_turnedAway (List.mem_append_right lead List.mem_cons_self)
  have nothingMore : continued = [] := by
    rw [fromNext.eq_of_ended phase] at grown
    simpa using grown
  cases lead with
  | nil =>
      simp only [List.nil_append, List.cons.injEq, true_and] at shape
      rw [nothingMore, shape] at afterShape
      exact ⟨_, _, by simpa using afterShape⟩
  | cons first lead =>
      simp only [List.cons_append, List.cons.injEq] at shape
      have member :
          Event.turnedAway event ∈ lead ++ Event.turnedAway event :: later :=
        List.mem_append_right lead List.mem_cons_self
      simp [shape.2] at member

/-- Leaving a session alone closes the stream that is open. -/
private theorem State.streamAfterAll?_leaveAt
    {state : State}
    (inOrder :
      streamAfterAll? false state.history.events =
        some state.phase.isOpen)
    (horizon : Milliseconds) :
    streamAfterAll? false (state.leaveAt horizon).history.events =
      some false := by
  unfold leaveAt report?
  split
  · next report ended =>
      split at ended
      · next termination phase =>
          rw [phase] at inOrder
          exact inOrder
      · cases ended
  · cases isOpen : state.phase.isOpen with
    | false =>
        rw [isOpen] at inOrder
        exact inOrder
    | true =>
        rw [isOpen] at inOrder
        have closed :
            ((state.waitUntil horizon).close.history).events =
              state.history.events ++ [.closed] := by
          simp [close, History.events]
        simp only [if_true]
        rw [closed, streamAfterAll?_append, inOrder]
        rfl

/--
In every run there is never more than one stream: openings and closings
alternate, the source is called only between streams, and whatever is read or
delivered finds one open.  A session that has ended has closed every stream it
opened and does nothing more.  When it ends, its stream is closed once and
nothing else happens, even after a consumer turned out to be gone.  A session
that is dropped closes its stream as well.
-/
theorem one_stream_at_a_time
    {scenario : Scenario}
    {state : State}
    (reaches : Reaches scenario scenario.initial state) :
    OneStream state.history ∧
      state.history.openings =
        state.history.closings + state.phase.isOpen.toNat ∧
      (∀ termination, state.phase = .ended termination →
        state.history.openings = state.history.closings ∧
          scenario.step? state = none) ∧
      (∀ next termination, scenario.step? state = some next →
        next.phase = .ended termination →
        ∃ (cause : List Event) (attempts forwarded : Nat),
          (cause = [] ∨
            cause = [.attempted attempts] ∨
            ∃ event, cause = [.turnedAway event]) ∧
          next.history =
            state.history ++
              (cause ++ (if state.phase.isOpen then [Event.closed] else []) ++
                [Event.ended termination attempts forwarded]).map
                  (Timed.mk next.now)) ∧
      (∀ before time event after,
        state.history = before ++ ⟨time, .turnedAway event⟩ :: after →
        ∃ attempts forwarded,
          after =
            [⟨time, .closed⟩,
              ⟨time, .ended .consumerGone attempts forwarded⟩]) ∧
      (∀ horizon,
        OneStream (state.leaveAt horizon).history ∧
          (state.leaveAt horizon).history.openings =
            (state.leaveAt horizon).history.closings) := by
  have inOrder := reaches.streamAfterAll?_eq
  have counted :
      state.history.openings =
        state.history.closings + state.phase.isOpen.toNat := by
    simpa using History.openings_eq inOrder
  refine ⟨.of_check inOrder, counted, ?ended, ?ends, ?gone, ?dropped⟩
  case ended =>
    intro termination phase
    rw [phase] at counted
    exact ⟨counted, by simp [Scenario.step?, phase]⟩
  case ends =>
    intro next termination steps phase
    obtain ⟨events, transition⟩ := Scenario.Transition.of_step? steps
    obtain ⟨cause, attempts, forwarded, rfl, causes⟩ :=
      transition.of_ended phase
    exact ⟨cause, attempts, forwarded, causes, transition.history⟩
  case gone =>
    intro before time event after split
    exact reaches.of_turnedAway split
  case dropped =>
    intro horizon
    have droppedInOrder := State.streamAfterAll?_leaveAt inOrder horizon
    exact ⟨.of_check droppedInOrder,
      by simpa using History.openings_eq droppedInOrder⟩

/-- Two streams are opened one after the other, and both are closed. -/
theorem one_stream_of_reconnecting :
    let state := Scenario.reconnecting.stateAt 100
    Reaches Scenario.reconnecting Scenario.reconnecting.initial state ∧
      state.phase = .ended .consumerGone ∧
      state.history.openings = 2 ∧
      OneStream state.history ∧
      state.history.closings = 2 := by
  intro state
  have reaches := Scenario.reconnecting.reaches_stateAt 100
  obtain ⟨oneStream, -, ended, -⟩ := one_stream_at_a_time reaches
  have phase : state.phase = .ended .consumerGone := by
    decide +kernel
  have openings : state.history.openings = 2 := by
    decide +kernel
  exact ⟨reaches, phase, openings, oneStream,
    (ended _ phase).1.symm.trans openings⟩

end EventRelay.Session
