import EventRelay.Proofs.Session.OneStream
import EventRelay.Proofs.Session.Outward

namespace EventRelay.Session

/-!
# Sessions at a horizon

A session that is left alone at a horizon stands where its next step, if there
is one, comes later.  Every state that its run reaches before leads there, so
that two runs are seen alike at a horizon if each of them comes, as often as
the other does, to states that are seen alike.
-/

open Timing (Milliseconds)

/-- Nothing seen from outside tells two points of two runs apart. -/
structure SeenAlike (state other : State) : Prop where
  now : state.now = other.now
  report : state.report? = other.report?
  outward : state.history.outward = other.history.outward

/-- Where a session stands that is left alone at a horizon. -/
structure StandsAt
    (scenario : Scenario)
    (horizon : Milliseconds)
    (state : State) : Prop where
  reaches : Reaches scenario scenario.initial state
  notAfter : state.now ≤ horizon
  waits : ∀ next, scenario.step? state = some next → horizon < next.now

/-- A run up to a horizon does not go beyond it. -/
private theorem Scenario.now_runFrom_le
    (scenario : Scenario)
    {horizon steps : Nat}
    {state : State}
    (notAfter : state.now ≤ horizon) :
    (scenario.runFrom horizon steps state).now ≤ horizon := by
  induction steps generalizing state with
  | zero =>
      exact notAfter
  | succ steps inductionHypothesis =>
      rw [Scenario.runFrom]
      split
      · exact notAfter
      · split
        · exact notAfter
        · next within =>
            exact inductionHypothesis (Nat.le_of_not_lt within)

/--
A run up to a horizon ends where the session stands then, unless it took too
few steps.
-/
theorem StandsAt.of_stateAt
    {scenario : Scenario}
    {horizon : Milliseconds}
    (enough :
      (scenario.step? (scenario.stateAt horizon)).all (horizon < ·.now) =
        true) :
    StandsAt scenario horizon (scenario.stateAt horizon) where
  reaches := scenario.reaches_stateAt horizon
  notAfter := scenario.now_runFrom_le (Nat.zero_le horizon)
  waits next steps := by
    rw [steps] at enough
    exact of_decide_eq_true enough

/-- Of two states that a run reaches, one leads to the other. -/
private theorem Reaches.comparable
    {scenario : Scenario}
    {start first second : State}
    (toFirst : Reaches scenario start first)
    (toSecond : Reaches scenario start second) :
    Reaches scenario first second ∨ Reaches scenario second first := by
  induction toFirst with
  | refl =>
      exact .inl toSecond
  | @step start middle first steps rest inductionHypothesis =>
      cases toSecond with
      | refl =>
          exact .inr (.step steps rest)
      | step otherSteps otherRest =>
          rw [steps] at otherSteps
          cases otherSteps
          exact inductionHypothesis otherRest

/--
Every state that comes before a horizon leads to where the session stands
then.
-/
theorem StandsAt.reaches_of_notAfter
    {scenario : Scenario}
    {horizon : Milliseconds}
    {last state : State}
    (stands : StandsAt scenario horizon last)
    (reaches : Reaches scenario scenario.initial state)
    (notAfter : state.now ≤ horizon) :
    Reaches scenario state last := by
  rcases reaches.comparable stands.reaches with before | after
  · exact before
  · cases after with
    | refl =>
        exact .refl last
    | step steps rest =>
        have later := stands.waits _ steps
        exact absurd (Nat.le_trans rest.now_le notAfter)
          (Nat.not_le_of_lt later)

/-- What is seen from outside only grows. -/
theorem Reaches.outward_prefix
    {scenario : Scenario}
    {first last : State}
    (reaches : Reaches scenario first last) :
    first.history.outward <+: last.history.outward := by
  obtain ⟨later, grown⟩ := reaches.history_prefix
  rw [← grown, History.outward_append]
  exact List.prefix_append _ _

/-- Openings and closings are seen from outside. -/
private theorem History.switches_eq
    {history other : History}
    (outward : history.outward = other.outward) :
    history.switches = other.switches := by
  refine filterMap_eq outward ?_
  rintro ⟨time, event⟩ input
  cases event <;> cases input <;> rfl

/-- Whether a stream is open is seen from outside. -/
theorem isOpen_eq_of_outward
    {first second : Scenario}
    {state other : State}
    (reaches : Reaches first first.initial state)
    (otherReaches : Reaches second second.initial other)
    (outward : state.history.outward = other.history.outward) :
    state.phase.isOpen = other.phase.isOpen := by
  have switches := History.switches_eq outward
  have counted := History.openings_eq reaches.streamAfterAll?_eq
  have otherCounted := History.openings_eq otherReaches.streamAfterAll?_eq
  rw [History.openings, History.closings, switches] at counted
  rw [History.openings, History.closings] at otherCounted
  have same : state.phase.isOpen.toNat = other.phase.isOpen.toNat := by
    omega
  cases isOpen : state.phase.isOpen <;>
    cases otherIsOpen : other.phase.isOpen <;>
    simp_all

/-- A session that has ended stays where it is. -/
theorem Reaches.eq_of_report?
    {scenario : Scenario}
    {first last : State}
    {report : Report}
    (reaches : Reaches scenario first last)
    (reports : first.report? = some report) :
    last = first := by
  unfold State.report? at reports
  split at reports
  · next phase =>
      exact reaches.eq_of_ended phase
  · cases reports

/-- Two runs with the same end and the same events seen from outside. -/
structure Run.Alike (run other : Run) : Prop where
  outcome : run.outcome = other.outcome
  outward : run.history.outward = other.history.outward

/-- Runs that are alike leave the same metrics. -/
theorem Run.Alike.metrics
    {run other : Run}
    (alike : run.Alike other) :
    run.metrics = other.metrics := by
  rw [Run.metrics, Run.metrics, alike.outcome,
    History.metrics_eq alike.outward]

/-- Whatever is seen of one run is seen of another one. -/
def Scenario.FollowedBy (first second : Scenario) : Prop :=
  ∀ state, Reaches first first.initial state →
    ∃ other, Reaches second second.initial other ∧ SeenAlike state other

namespace StandsAt

variable {first second : Scenario}
variable {horizon : Milliseconds}
variable {state other : State}

/-- One of two sessions at a horizon has come at least as far as the other. -/
private theorem comes_as_far
    (followed : first.FollowedBy second)
    (stands : StandsAt first horizon state)
    (otherStands : StandsAt second horizon other) :
    state.now ≤ other.now ∧
      state.history.outward <+: other.history.outward ∧
      (state.report? = none ∨ state.report? = other.report?) := by
  obtain ⟨earlier, toEarlier, alike⟩ := followed state stands.reaches
  have fromEarlier :=
    otherStands.reaches_of_notAfter toEarlier (alike.now ▸ stands.notAfter)
  refine ⟨?_, ?_, ?_⟩
  · rw [alike.now]
    exact fromEarlier.now_le
  · rw [alike.outward]
    exact fromEarlier.outward_prefix
  · cases reports : state.report? with
    | none =>
        exact .inl rfl
    | some report =>
        have ended := alike.report.symm.trans reports
        rw [fromEarlier.eq_of_report? ended, ended]
        exact .inr rfl

/-- Runs of which each follows the other are seen alike at a horizon. -/
theorem seenAlike
    (followed : first.FollowedBy second)
    (following : second.FollowedBy first)
    (stands : StandsAt first horizon state)
    (otherStands : StandsAt second horizon other) :
    SeenAlike state other := by
  obtain ⟨notLater, grown, report⟩ := comes_as_far followed stands otherStands
  obtain ⟨notEarlier, otherGrown, otherReport⟩ :=
    comes_as_far following otherStands stands
  refine ⟨Nat.le_antisymm notLater notEarlier, ?_, ?_⟩
  · rcases report with none | same
    · rcases otherReport with otherNone | same
      · rw [none, otherNone]
      · exact same.symm
    · exact same
  · exact grown.eq_of_length
      (Nat.le_antisymm grown.length_le otherGrown.length_le)

/-- Sessions that are seen alike at a horizon are left alone alike. -/
theorem leaveAt_alike
    (stands : StandsAt first horizon state)
    (otherStands : StandsAt second horizon other)
    (alike : SeenAlike state other) :
    (state.leaveAt horizon).Alike (other.leaveAt horizon) := by
  have isOpen :=
    isOpen_eq_of_outward stands.reaches otherStands.reaches alike.outward
  rw [State.leaveAt, State.leaveAt, alike.report, isOpen]
  cases other.report? with
  | some report =>
      exact ⟨rfl, alike.outward⟩
  | none =>
      have now :
          (state.waitUntil horizon).now = (other.waitUntil horizon).now :=
        congrArg (max · horizon) alike.now
      simp only
      split
      · rw [State.close, State.close, State.history_record,
          State.history_record, now]
        refine ⟨rfl, ?_⟩
        rw [History.outward_append, History.outward_append]
        exact congrArg (· ++ _) alike.outward
      · exact ⟨rfl, alike.outward⟩

end StandsAt

end EventRelay.Session
