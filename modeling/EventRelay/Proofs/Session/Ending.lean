import EventRelay.Proofs.Frame.Refinement
import EventRelay.Proofs.Session.Stopping
import EventRelay.Proofs.Timing.Delay

namespace EventRelay.Session

/-!
# Sessions that come to an end

Between two waits before an attempt a session takes finitely many steps: each
one uses up a planned answer, waiting bytes, or a pending event.  Waits that
take time are finitely many before a given moment.  Hence a session that is
cancelled at some moment ends, and so does one whose consumer leaves while
events are delivered.
-/

open Timing (Milliseconds)

/-- The steps that the bytes of an answer may give rise to. -/
def ReadAnswer.work : ReadAnswer → Nat
  | .chunk bytes =>
      2 * bytes.length + 3
  | _ =>
      0

/-- The steps that the bytes of all reads may give rise to. -/
def readsWork : List TimedRead → Nat
  | [] =>
      0
  | read :: later =>
      read.answer.work + readsWork later

private theorem readsWork_eq (reads : List TimedRead) :
    readsWork reads =
      (reads.headD .ended).answer.work + readsWork reads.tail := by
  cases reads <;> rfl

/-- The steps that an answer to an attempt may give rise to. -/
def ConnectAnswer.work : ConnectAnswer → Nat
  | .opened reads =>
      readsWork reads + 6
  | _ =>
      0

namespace Scenario

/-- A bound on the steps until the next wait before an attempt begins. -/
def work (scenario : Scenario) (state : State) : Nat :=
  let waiting := 2 * state.decoder.buffer.length
  match state.phase with
  | .pausing _ =>
      (state.connects.headD scenario.afterwards).answer.work + 2
  | .connecting =>
      (state.connects.headD scenario.afterwards).answer.work + 1
  | .dialing _ answer =>
      answer.work
  | .streaming reads =>
      waiting + readsWork reads + 5
  | .reading _ _ answer reads =>
      waiting + answer.work + readsWork reads + 4
  | .delivering reads =>
      waiting + readsWork reads + 6
  | .emitting _ _ reads =>
      waiting + readsWork reads + 7
  | .ended _ =>
      0

end Scenario

/-- The present, or the end of the wait that has begun. -/
def State.clock (state : State) : Milliseconds :=
  match state.phase with
  | .pausing due =>
      due
  | _ =>
      state.now

/-- What never comes is not waited for as if it came. -/
structure Planned (scenario : Scenario) (state : State) : Prop where
  dialing : ∀ due, state.phase = .dialing due .silent → due = none
  reading :
    ∀ due limit reads,
      state.phase = .reading due limit .silent reads → due = none
  emitting :
    ∀ event reads, state.phase = .emitting none event reads →
      ∃ taken, scenario.consumer.delay taken = none

namespace Scenario

private theorem pause_pos
    {scenario : Scenario}
    (positive : 0 < scenario.settings.backoff.leastDelay 1)
    (state : State) :
    0 < scenario.pause state := by
  have failures : 1 ≤ nextFailures state :=
    Nat.le_min.mpr ⟨Nat.le_add_left _ _, by decide⟩
  calc
    0 < scenario.settings.backoff.leastDelay 1 := positive
    _ ≤ scenario.settings.backoff.leastDelay (nextFailures state) :=
      scenario.settings.backoff.leastDelay_mono failures
    _ ≤ scenario.pause state :=
      scenario.settings.backoff.leastDelay_le_delay _ _

namespace Transition

variable {scenario : Scenario}
variable {state next : State}
variable {events : List Event}

private theorem planned
    (transition : scenario.Transition state events next)
    (before : Planned scenario state) :
    Planned scenario next := by
  cases transition with
  | called connect =>
      refine ⟨?_, by simp, by simp⟩
      intro due phase
      simp only [State.phase_enter, Phase.dialing.injEq] at phase
      obtain ⟨rfl, silent⟩ := phase
      simp [TimedConnect.due, silent]
  | reading read =>
      refine ⟨by simp, ?_, by simp⟩
      intro due limit reads phase
      simp only [State.phase_enter, Phase.reading.injEq] at phase
      obtain ⟨rfl, -, silent, -⟩ := phase
      simp [TimedRead.due, silent]
  | offered event =>
      refine ⟨by simp, by simp, ?_⟩
      intro other reads phase
      simp only [State.phase_enter, Phase.emitting.injEq] at phase
      exact ⟨_, Option.map_eq_none_iff.mp phase.1⟩
  | dialSilent | readSilent =>
      exact ⟨before.dialing, before.reading, before.emitting⟩
  | _ =>
      constructor <;> simp [leave, backOff]

/-- A step does some of the work, or a wait before an attempt begins. -/
theorem work_lt
    (transition : scenario.Transition state events next)
    (planned : Planned scenario state)
    (running : ∀ termination, next.phase ≠ .ended termination) :
    (scenario.work next < scenario.work state ∧ state.clock ≤ next.clock) ∨
      next.phase = .pausing (next.now + scenario.pause state) ∧
        state.clock = state.now := by
  cases transition with
  | attemptStopped | streamStopped | dialStopped | readStopped
  | deliveryStopped | emitStopped | turnedAway | pauseStopped =>
      exact (running _ (State.phase_stop _ _)).elim
  | refused phase | readFailed phase | readEnded phase | readIdle _ phase
  | tooLarge phase =>
      exact .inr ⟨rfl, by rw [State.clock, phase]⟩
  | called connect phase wakes scripted =>
      refine .inl ⟨?_, ?_⟩
      · subst scripted
        simp only [work, phase, State.phase_enter]
        exact Nat.lt_succ_self _
      · rw [State.clock, phase]
        exact Nat.le_refl _
  | @opened due reads time phase =>
      refine .inl ⟨?_, ?_⟩
      · simp only [work, phase, State.phase_enter]
        change 2 * 0 + readsWork reads + 5 < readsWork reads + 6
        omega
      · rw [State.clock, phase]
        exact Nat.le_max_left _ _
  | @dialSilent due time phase wakes =>
      obtain ⟨rfl, -⟩ := wake_eq_ready wakes
      cases planned.dialing _ phase
  | @reading reads _ read phase wakes scripted =>
      refine .inl ⟨?_, ?_⟩
      · have split := readsWork_eq reads
        rw [scripted] at split
        simp only [work, phase, State.phase_enter]
        change
          2 * state.decoder.buffer.length + read.answer.work +
              readsWork reads.tail + 4 <
            2 * state.decoder.buffer.length + readsWork reads + 5
        omega
      · rw [State.clock, phase]
        exact Nat.le_refl _
  | @received due limit bytes reads time phase =>
      refine .inl ⟨?_, ?_⟩
      · have longer : (state.decoder.feed bytes).buffer.length =
            state.decoder.buffer.length + bytes.length :=
          List.length_append
        simp only [work, phase, State.phase_enter]
        change
          2 * (state.decoder.feed bytes).buffer.length + readsWork reads + 6 <
            2 * state.decoder.buffer.length + (2 * bytes.length + 3) +
              readsWork reads + 4
        omega
      · rw [State.clock, phase]
        exact Nat.le_max_left _ _
  | @readSilent due limit reads time phase inTime wakes =>
      obtain ⟨rfl, -⟩ := wake_eq_ready wakes
      cases planned.reading _ _ _ phase
  | @offered reads frame decoder _ event phase takes =>
      have shorter :
          decoder.buffer.length + 1 ≤ state.decoder.buffer.length := by
        simpa [takes] using state.decoder.length_next_le
      refine .inl ⟨?_, ?_⟩
      · simp only [work, phase, State.phase_enter]
        change
          2 * decoder.buffer.length + readsWork reads + 7 <
            2 * state.decoder.buffer.length + readsWork reads + 6
        omega
      · rw [State.clock, phase]
        exact Nat.le_refl _
  | @drained reads decoder phase takes =>
      have shorter : decoder.buffer.length ≤ state.decoder.buffer.length := by
        simpa [takes] using state.decoder.length_next_le
      refine .inl ⟨?_, ?_⟩
      · simp only [work, phase, State.phase_enter]
        change
          2 * decoder.buffer.length + readsWork reads + 5 <
            2 * state.decoder.buffer.length + readsWork reads + 6
        omega
      · rw [State.clock, phase]
        exact Nat.le_refl _
  | accepted phase =>
      refine .inl ⟨?_, ?_⟩
      · simp only [work, phase, State.phase_enter]
        exact Nat.lt_succ_self _
      · rw [State.clock, phase]
        exact Nat.le_max_left _ _
  | resumed phase =>
      refine .inl ⟨?_, ?_⟩
      · simp only [work, phase, State.phase_enter]
        exact Nat.lt_succ_self _
      · rw [State.clock, phase]
        exact Nat.le_max_right _ _

end Transition

end Scenario

namespace Reaches

variable {scenario : Scenario}

theorem planned
    {state : State}
    (reaches : Reaches scenario scenario.initial state) :
    Planned scenario state :=
  reaches.invariant (Planned scenario) Scenario.Transition.planned
    (by constructor <;> simp [Scenario.initial, State.record])

/--
With waits that take time, a session ends if no state is reached beyond some
moment, and if it can take a step until then.
-/
theorem exists_end_of_bounded
    {state : State}
    (reaches : Reaches scenario scenario.initial state)
    (positive : 0 < scenario.settings.backoff.leastDelay 1)
    {moment : Milliseconds}
    (bounded :
      ∀ {later}, Reaches scenario scenario.initial later →
        later.now ≤ moment)
    (goesOn :
      ∀ {later}, Reaches scenario scenario.initial later →
        (∀ termination, later.phase ≠ .ended termination) →
        ∃ next, scenario.step? later = some next) :
    ∃ last termination,
      Reaches scenario state last ∧ last.phase = .ended termination := by
  by_cases running : ∀ termination, state.phase ≠ .ended termination
  · obtain ⟨next, steps⟩ := goesOn reaches running
    obtain ⟨events, transition⟩ := Scenario.Transition.of_step? steps
    by_cases goesOnNext : ∀ termination, next.phase ≠ .ended termination
    · have less := transition.work_lt reaches.planned goesOnNext
      have inTime := bounded reaches
      have toNext := reaches.trans (.of_transition transition)
      obtain ⟨last, termination, toLast, phase⟩ :=
        exists_end_of_bounded toNext positive bounded goesOn
      exact ⟨last, termination, .step steps toLast, phase⟩
    · obtain ⟨termination, phase⟩ := Classical.not_forall_not.mp goesOnNext
      exact ⟨next, termination, .of_transition transition, phase⟩
  · obtain ⟨termination, phase⟩ := Classical.not_forall_not.mp running
    exact ⟨state, termination, .refl state, phase⟩
termination_by (moment + 1 - state.clock, scenario.work state)
decreasing_by
  -- Either some of the work is done while the clock does not go back, or a
  -- wait begins, which moves the clock on; it never passes the moment.
  rcases less with ⟨lessWork, clock⟩ | ⟨phase, now⟩
  · rcases Nat.lt_or_eq_of_le (Nat.sub_le_sub_left clock (moment + 1)) with
        sooner | same
    · exact Prod.Lex.left _ _ sooner
    · rw [same]
      exact Prod.Lex.right _ lessWork
  · have waits := Scenario.pause_pos positive state
    have later : state.clock < next.clock := by
      rw [now, State.clock, phase]
      exact Nat.lt_of_le_of_lt transition.now_le (Nat.lt_add_of_pos_right waits)
    have notAfter : state.clock < moment + 1 := by
      rw [now]
      exact Nat.lt_succ_of_le inTime
    exact Prod.Lex.left _ _ (Nat.sub_lt_sub_left notAfter later)

end Reaches

end EventRelay.Session
