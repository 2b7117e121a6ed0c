import EventRelay.Proofs.Session.Transition

namespace EventRelay.Session

/-!
# Reachable states

A property that holds at the start and that every transition keeps holds of
every state that a run reaches.  Histories only grow, and each event of a
history was recorded by one transition of the run.
-/

open Timing (Milliseconds)

/-- A session begins with the record of its start. -/
theorem Scenario.history_initial (scenario : Scenario) :
    scenario.initial.history = [⟨0, .started⟩] :=
  rfl

/--
An event of the next history was there before, or the transition recorded it.
-/
theorem Scenario.Transition.recorded
    {scenario : Scenario}
    {state next : State}
    {events : List Event}
    (transition : scenario.Transition state events next)
    {before after : History}
    {timed : Timed}
    (split : next.history = before ++ timed :: after) :
    (∃ rest, state.history = before ++ timed :: rest) ∨
      ∃ earlier later,
        events = earlier ++ timed.event :: later ∧
          timed.time = next.now ∧
          before = state.history ++ earlier.map (Timed.mk next.now) := by
  rw [transition.history] at split
  rcases List.append_eq_append_iff.mp split with
      ⟨new, beforeShape, newShape⟩ | ⟨old, stateShape, oldShape⟩
  · obtain ⟨earlier, others, rfl, rfl, othersShape⟩ :=
      List.map_eq_append_iff.mp newShape
    obtain ⟨event, later, rfl, rfl, -⟩ :=
      List.map_eq_cons_iff.mp othersShape
    exact .inr ⟨earlier, later, rfl, rfl, beforeShape⟩
  · cases old with
    | cons head old =>
        simp only [List.cons_append, List.cons.injEq] at oldShape
        obtain ⟨rfl, -⟩ := oldShape
        exact .inl ⟨old, stateShape⟩
    | nil =>
        obtain ⟨event, later, rfl, rfl, -⟩ :=
          List.map_eq_cons_iff.mp oldShape.symm
        exact .inr ⟨[], later, rfl, rfl, by simpa using stateShape.symm⟩

/-- A session that has ended takes no step. -/
theorem Scenario.Transition.running
    {scenario : Scenario}
    {state next : State}
    {events : List Event}
    (transition : scenario.Transition state events next)
    (termination : Termination) :
    state.phase ≠ .ended termination := by
  intro phase
  have steps := transition.step?_eq
  simp [Scenario.step?, phase] at steps

namespace Reaches

theorem trans
    {scenario : Scenario}
    {first middle last : State}
    (before : Reaches scenario first middle)
    (after : Reaches scenario middle last) :
    Reaches scenario first last := by
  induction before with
  | refl =>
      exact after
  | step steps _ inductionHypothesis =>
      exact .step steps (inductionHypothesis after)

theorem of_transition
    {scenario : Scenario}
    {state next : State}
    {events : List Event}
    (transition : scenario.Transition state events next) :
    Reaches scenario state next :=
  .step transition.step?_eq (.refl next)

/-- What every transition keeps, every run keeps. -/
theorem invariant
    {scenario : Scenario}
    (property : State → Prop)
    (kept :
      ∀ {state events next},
        scenario.Transition state events next →
        property state →
        property next)
    {first last : State}
    (reaches : Reaches scenario first last)
    (start : property first) :
    property last := by
  induction reaches with
  | refl =>
      exact start
  | step steps _ inductionHypothesis =>
      obtain ⟨events, transition⟩ := Scenario.Transition.of_step? steps
      exact inductionHypothesis (kept transition start)

/-- What every transition of a reachable state keeps, every run keeps. -/
theorem invariant_of_reachable
    {scenario : Scenario}
    (property : State → Prop)
    (kept :
      ∀ {state events next},
        Reaches scenario scenario.initial state →
        scenario.Transition state events next →
        property state →
        property next)
    {last : State}
    (reaches : Reaches scenario scenario.initial last)
    (start : property scenario.initial) :
    property last := by
  have both : Reaches scenario scenario.initial last ∧ property last := by
    refine reaches.invariant
      (fun state => Reaches scenario scenario.initial state ∧ property state)
      ?_ ⟨.refl _, start⟩
    rintro state events next transition ⟨toState, holds⟩
    exact ⟨toState.trans (.of_transition transition),
      kept toState transition holds⟩
  exact both.2

/-- A run that goes anywhere has a last transition. -/
theorem eq_or_last
    {scenario : Scenario}
    {first last : State}
    (reaches : Reaches scenario first last) :
    last = first ∨
      ∃ origin events,
        Reaches scenario first origin ∧
          scenario.Transition origin events last := by
  induction reaches with
  | refl =>
      exact .inl rfl
  | @step first middle last steps rest inductionHypothesis =>
      rcases inductionHypothesis with rfl | ⟨origin, events, toOrigin, transition⟩
      · obtain ⟨events, transition⟩ := Scenario.Transition.of_step? steps
        exact .inr ⟨first, events, .refl first, transition⟩
      · exact .inr ⟨origin, events, .step steps toOrigin, transition⟩

/-- What happened before stays in the history. -/
theorem history_prefix
    {scenario : Scenario}
    {first last : State}
    (reaches : Reaches scenario first last) :
    first.history <+: last.history := by
  refine reaches.invariant
    (fun state => first.history <+: state.history)
    ?_ (List.prefix_refl _)
  intro state events next transition grown
  rw [transition.history]
  exact grown.trans (List.prefix_append _ _)

/-- Time does not go back. -/
theorem now_le
    {scenario : Scenario}
    {first last : State}
    (reaches : Reaches scenario first last) :
    first.now ≤ last.now :=
  reaches.invariant (fun state => first.now ≤ state.now)
    (fun transition before => Nat.le_trans before transition.now_le)
    (Nat.le_refl _)

/-- A run that begins at the end of a session stays there. -/
theorem eq_of_ended
    {scenario : Scenario}
    {first last : State}
    {termination : Termination}
    (reaches : Reaches scenario first last)
    (phase : first.phase = .ended termination) :
    last = first := by
  cases reaches with
  | refl =>
      rfl
  | step steps rest =>
      simp [Scenario.step?, phase] at steps

/--
An event of a history was there at the start, or one transition of the run
recorded it.
-/
theorem recorded
    {scenario : Scenario}
    {first last : State}
    (reaches : Reaches scenario first last)
    {before after : History}
    {timed : Timed}
    (split : last.history = before ++ timed :: after) :
    (∃ rest, first.history = before ++ timed :: rest) ∨
      ∃ state next earlier later,
        Reaches scenario first state ∧
          scenario.Transition state
            (earlier ++ timed.event :: later) next ∧
          Reaches scenario next last ∧
          timed.time = next.now ∧
          before = state.history ++ earlier.map (Timed.mk next.now) ∧
          ∃ continued,
            after = later.map (Timed.mk next.now) ++ continued ∧
              last.history = next.history ++ continued := by
  -- The first step recorded the event, or it was there before, or a later
  -- step recorded it.
  induction reaches with
  | refl =>
      exact .inl ⟨after, split⟩
  | @step first middle last steps rest inductionHypothesis =>
      obtain ⟨events, transition⟩ := Scenario.Transition.of_step? steps
      rcases inductionHypothesis split with
          ⟨tail, inMiddle⟩ |
          ⟨state, next, earlier, later, reaches, records⟩
      · rcases transition.recorded inMiddle with
            atStart | ⟨earlier, later, rfl, sameTime, beforeShape⟩
        · exact .inl atStart
        · obtain ⟨continued, grown⟩ := rest.history_prefix
          have afterShape :
              after = later.map (Timed.mk middle.now) ++ continued := by
            rw [← grown, transition.history, beforeShape] at split
            simp only [List.map_append, List.map_cons, List.append_assoc,
              List.cons_append, List.append_cancel_left_eq,
              List.cons.injEq] at split
            exact split.2.symm
          exact .inr ⟨first, middle, earlier, later, .refl first, transition,
            rest, sameTime, beforeShape, continued, afterShape, grown.symm⟩
      · exact .inr ⟨state, next, earlier, later, .step steps reaches,
          records⟩

/-- Whatever happens after the start was recorded by one transition. -/
theorem recorded_after_start
    {scenario : Scenario}
    {last : State}
    (reaches : Reaches scenario scenario.initial last)
    {before after : History}
    {time : Milliseconds}
    {event : Event}
    (split : last.history = before ++ ⟨time, event⟩ :: after)
    (notStart : event ≠ .started) :
    ∃ state next earlier later continued,
      Reaches scenario scenario.initial state ∧
        scenario.Transition state (earlier ++ event :: later) next ∧
        Reaches scenario next last ∧
        time = next.now ∧
        before = state.history ++ earlier.map (Timed.mk next.now) ∧
        after = later.map (Timed.mk next.now) ++ continued ∧
        last.history = next.history ++ continued := by
  rcases reaches.recorded split with
      ⟨rest, atStart⟩ |
      ⟨state, next, earlier, later, toState, transition, fromNext, sameTime,
        beforeShape, continued, afterShape, grown⟩
  · have start : (⟨time, event⟩ : Timed) ∈ scenario.initial.history := by
      rw [atStart]
      exact List.mem_append_right before List.mem_cons_self
    rw [Scenario.history_initial, List.mem_singleton] at start
    exact (notStart (congrArg Timed.event start)).elim
  · exact ⟨state, next, earlier, later, continued, toState, transition,
      fromNext, sameTime, beforeShape, afterShape, grown⟩

end Reaches

namespace Scenario

/-- A run up to a horizon is a run. -/
private theorem reaches_runFrom
    (scenario : Scenario)
    (horizon steps : Nat)
    (state : State) :
    Reaches scenario state (scenario.runFrom horizon steps state) := by
  induction steps generalizing state with
  | zero =>
      exact .refl state
  | succ steps inductionHypothesis =>
      rw [runFrom]
      split
      · exact .refl state
      · next next taken =>
          split
          · exact .refl state
          · exact .step taken (inductionHypothesis next)

/-- The state at a horizon is reached. -/
theorem reaches_stateAt (scenario : Scenario) (horizon : Nat) :
    Reaches scenario scenario.initial (scenario.stateAt horizon) :=
  scenario.reaches_runFrom horizon _ scenario.initial

/--
A session that is refused once, then gets a stream that ends within an event,
and then one whose second event finds the consumer gone.
-/
def reconnecting : Scenario where
  url :=
    ⟨['h', 't', 't', 'p'], [], none, some (.name ['c']), none,
      .segments [['s']], none, none⟩
  settings := ⟨some "http://c/s", .fixed 5, some 60, 64⟩
  connects :=
    [.badGateway,
      ⟨3, .opened [⟨0, .chunk (Text.Utf8.bytesOf "data: a\n\ndata")⟩]⟩,
      ⟨0, .opened
        [⟨0, .chunk (Text.Utf8.bytesOf "data: b\n\ndata: c\n\n")⟩]⟩]
  afterwards := .badGateway
  consumer := { Consumer.eager with takes := (· < 2) }
  cancellation := .never
  jitter := fun _ => 0

end Scenario

end EventRelay.Session
