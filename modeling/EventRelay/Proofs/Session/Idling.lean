import EventRelay.Proofs.Session.Exceeding
import EventRelay.Proofs.Session.Retry
import EventRelay.Proofs.Session.Scripted

namespace EventRelay.Session

/-!
# Idle limits

The idle limit is counted for each read from when it began.  A connection is
left because of silence exactly if a read is still pending after that time
and the session need not stop until then.  So a limit that no read exceeds is
as good as any other, and as none.
-/

open Timing (Milliseconds)

/--
A read that began now is pending for a time: it is not answered by then, and
the session need not stop.
-/
structure StillPending
    (scenario : Scenario)
    (state : State)
    (due : Option Milliseconds)
    (limit : Milliseconds) : Prop where
  unanswered : ∀ moment ∈ due, state.now + limit < moment
  quiet :
    ∀ moment, state.now ≤ moment → moment ≤ state.now + limit →
      scenario.stopReason? moment state.forwarded = none

/-- What is recorded when a connection is left because of silence. -/
def leavingIdle
    (limit time : Milliseconds)
    (failures : Nat)
    (delay : Milliseconds) : History :=
  [⟨time, .closed⟩, ⟨time, .backedOff (.read (.idle limit)) failures delay⟩]

namespace Scenario

private theorem comesInTime_some {due : Option Milliseconds} {limit : Milliseconds} :
    comesInTime due (some limit) = true ↔
      ∃ moment, due = some moment ∧ moment ≤ limit := by
  cases due <;> simp [comesInTime]

private theorem comesInTime_some_eq_false
    {due : Option Milliseconds}
    {limit : Milliseconds} :
    comesInTime due (some limit) = false ↔ ∀ moment ∈ due, limit < moment := by
  cases due <;> simp [comesInTime]

end Scenario

/-- What a wait because of silence begins with. -/
theorem Scenario.Transition.of_idle
    {scenario : Scenario}
    {state next : State}
    {events : List Event}
    {limit failures delay : Nat}
    (transition : scenario.Transition state events next)
    (member : .backedOff (.read (.idle limit)) failures delay ∈ events) :
    ∃ due deadline answer reads time,
      state.phase = .reading due deadline answer reads ∧
        comesInTime due deadline = false ∧
        scenario.wake state deadline = .ready time ∧
        next.now = max state.now time ∧
        limit = scenario.settings.idleLimit.getD 0 ∧
        events =
          [.closed, .backedOff (.read (.idle limit)) failures delay] := by
  cases transition with
  | @readIdle due deadline answer reads time error phase late wakes idle =>
      simp only [backoffEvent, List.mem_cons, reduceCtorEq, false_or,
        Event.backedOff.injEq, BackoffReason.read.injEq, List.not_mem_nil,
        or_false] at member
      obtain ⟨rfl, rfl, rfl⟩ := member
      exact ⟨due, deadline, answer, reads, time, phase, late, wakes, rfl,
        Source.ReadError.idle.inj idle, rfl⟩
  | _ =>
      simp [backoffEvent] at member

namespace Reaches

variable {scenario : Scenario} {state : State}
variable {due deadline : Option Milliseconds} {answer : ReadAnswer}
variable {reads : List TimedRead} {limit : Milliseconds}

/-- The deadline of a read is counted from the present time. -/
theorem deadline_eq
    (reaches : Reaches scenario scenario.initial state)
    (limited : scenario.settings.idleLimit = some limit)
    (phase : state.phase = .reading due deadline answer reads) :
    deadline = some (state.now + limit) := by
  obtain ⟨-, shape, -⟩ := reaches.scripted.awaited phase
  rw [shape, limited, Option.map_some]

/-- A connection on which a read is still pending is left at the deadline. -/
theorem leaves_idle
    (reaches : Reaches scenario scenario.initial state)
    (limited : scenario.settings.idleLimit = some limit)
    (phase : state.phase = .reading due deadline answer reads)
    (pending : StillPending scenario state due limit) :
    ∃ next failures delay,
      scenario.step? state = some next ∧
        next.history =
          state.history ++
            leavingIdle limit (state.now + limit) failures delay := by
  obtain rfl := reaches.deadline_eq limited phase
  have late := Scenario.comesInTime_some_eq_false.mpr pending.unanswered
  have transition :=
    Scenario.Transition.readIdle (.idle limit) phase late
      (Scenario.wake_of_quiet_until pending.quiet)
      (by rw [limited, Option.getD_some])
  have now : max state.now (state.now + limit) = state.now + limit :=
    Nat.max_eq_right (Nat.le_add_right _ _)
  refine ⟨_, Scenario.nextFailures state, scenario.pause state,
    transition.step?_eq, ?_⟩
  rw [transition.history]
  exact congrArg (fun time => state.history ++
    leavingIdle limit time (Scenario.nextFailures state)
      (scenario.pause state)) now

/--
A read that is answered no later than the deadline counts, unless the session
must stop by then.
-/
theorem answered_in_time
    {moment : Milliseconds}
    (reaches : Reaches scenario scenario.initial state)
    (limited : scenario.settings.idleLimit = some limit)
    (phase : state.phase = .reading (some moment) deadline answer reads)
    (inTime : moment ≤ state.now + limit)
    (quiet : ∀ earlier, state.now ≤ earlier → earlier ≤ moment →
      scenario.stopReason? earlier state.forwarded = none) :
    scenario.step? state =
      some (scenario.answered (state.waitUntil moment) answer reads) := by
  obtain rfl := reaches.deadline_eq limited phase
  have comes := Scenario.comesInTime_some.mpr ⟨moment, rfl, inTime⟩
  rw [Scenario.step?, phase]
  simp only [Scenario.stepReading, comes, if_true,
    Scenario.wake_of_quiet_until quiet]

/--
Behind a wait because of silence there is a read that was pending until its
deadline.
-/
theorem pending_of_backedOff
    {before after : History}
    {time failures delay : Nat}
    (reaches : Reaches scenario scenario.initial state)
    (split :
      state.history =
        before ++
          ⟨time, .backedOff (.read (.idle limit)) failures delay⟩ :: after) :
    ∃ origin due deadline answer reads,
      Reaches scenario scenario.initial origin ∧
        scenario.settings.idleLimit = some limit ∧
        origin.phase = .reading due deadline answer reads ∧
        StillPending scenario origin due limit ∧
        time = origin.now + limit ∧
        before = origin.history ++ [⟨time, .closed⟩] := by
  obtain ⟨origin, next, lead, later, -, toOrigin, transition, -, rfl,
      beforeShape, -⟩ :=
    reaches.recorded_after_start split (by simp)
  obtain ⟨due, deadline, answer, reads, moment, phase, late, wakes, now,
    isLimit, shape⟩ :=
    transition.of_idle (List.mem_append_right lead List.mem_cons_self)
  obtain ⟨rfl, rfl⟩ :=
    Scenario.Transition.eq_of_split_pair shape (by simp)
  obtain ⟨isDeadline, quiet⟩ := Scenario.wake_eq_ready wakes
  obtain ⟨-, counted, -⟩ := toOrigin.scripted.awaited phase
  rw [isDeadline] at counted
  obtain ⟨idle, limited, rfl⟩ := Option.map_eq_some_iff.mp counted.symm
  rw [limited, Option.getD_some] at isLimit
  obtain rfl := isLimit
  rw [Nat.max_eq_right (Nat.le_add_right _ _)] at now
  rw [isDeadline] at late
  exact ⟨origin, due, deadline, answer, reads, toOrigin, limited, phase,
    ⟨Scenario.comesInTime_some_eq_false.mp late, quiet⟩, now, beforeShape⟩

/--
A connection is left at the deadline of a read exactly if the read is still
pending then.
-/
theorem leaves_idle_iff
    (reaches : Reaches scenario scenario.initial state)
    (limited : scenario.settings.idleLimit = some limit)
    (phase : state.phase = .reading due deadline answer reads) :
    (∃ next failures delay,
        scenario.step? state = some next ∧
          next.history =
            state.history ++
              leavingIdle limit (state.now + limit) failures delay) ↔
      StillPending scenario state due limit := by
  refine ⟨?_, reaches.leaves_idle limited phase⟩
  rintro ⟨next, failures, delay, steps, grown⟩
  obtain ⟨events, transition⟩ := Scenario.Transition.of_step? steps
  rw [transition.history, List.append_cancel_left_eq] at grown
  have member : .backedOff (.read (.idle limit)) failures delay ∈ events := by
    have recorded :
        (⟨state.now + limit,
            .backedOff (.read (.idle limit)) failures delay⟩ : Timed) ∈
          events.map (Timed.mk next.now) := by
      rw [grown]
      exact List.mem_cons_of_mem _ List.mem_cons_self
    obtain ⟨event, isEvent, same⟩ := List.mem_map.mp recorded
    obtain rfl : event = _ := congrArg Timed.event same
    exact isEvent
  obtain ⟨_, _, _, _, _, samePhase, late, wakes, -, -, -⟩ :=
    transition.of_idle member
  rw [phase] at samePhase
  cases samePhase
  obtain rfl := reaches.deadline_eq limited phase
  obtain ⟨isDeadline, quiet⟩ := Scenario.wake_eq_ready wakes
  obtain rfl := Option.some.inj isDeadline
  exact ⟨Scenario.comesInTime_some_eq_false.mp late, quiet⟩

end Reaches

/-! ## Limits that no read exceeds -/

namespace TimedRead

/-- Whether the answer to a read comes within a limit. -/
def isWithin (read : TimedRead) : Option Milliseconds → Bool
  | none =>
      true
  | some limit =>
      read.answer != .silent && read.wait ≤ limit

/-- Whether an answer comes in time does not depend on when its read began. -/
theorem comesInTime_eq_isWithin
    (read : TimedRead)
    (now : Milliseconds)
    (limit : Option Milliseconds) :
    Scenario.comesInTime (read.due now) (limit.map (now + ·)) =
      read.isWithin limit := by
  obtain ⟨wait, answer⟩ := read
  cases limit with
  | none =>
      rfl
  | some limit =>
      cases answer <;> simp [due, isWithin, Scenario.comesInTime]

private theorem isWithin_ended (limit : Option Milliseconds) :
    ended.isWithin limit = true := by
  cases limit <;> simp [isWithin, ended]

end TimedRead

namespace Scenario

/-- The same surroundings with another idle limit. -/
def withIdleLimit (scenario : Scenario) (limit : Option Milliseconds) :
    Scenario :=
  { scenario with settings.idleLimit := limit }

end Scenario

/-- A phase in which a read that is awaited has another limit. -/
def Phase.relimit (now : Milliseconds) (limit : Option Milliseconds) :
    Phase → Phase
  | .reading due _ answer reads =>
      .reading due (limit.map (now + ·)) answer reads
  | phase =>
      phase

@[simp] theorem Phase.isOpen_relimit
    (now : Milliseconds)
    (limit : Option Milliseconds)
    (phase : Phase) :
    (phase.relimit now limit).isOpen = phase.isOpen := by
  cases phase <;> rfl

namespace State

/-- A state in which a read that is awaited has another limit. -/
def relimit (limit : Option Milliseconds) (state : State) : State :=
  state.enter (state.phase.relimit state.now limit)

/-- Only the phase of a read tells limits apart. -/
theorem relimit_eq_self
    {state : State}
    (limit : Option Milliseconds)
    (notReading : ∀ due deadline answer reads,
      state.phase ≠ .reading due deadline answer reads) :
    state.relimit limit = state := by
  have same : state.phase.relimit state.now limit = state.phase := by
    cases phase : state.phase with
    | reading =>
        exact (notReading _ _ _ _ phase).elim
    | _ =>
        rfl
  rw [relimit, same]
  rfl

@[simp] theorem relimit_stop
    (limit : Option Milliseconds)
    (state : State)
    (termination : Termination) :
    (state.stop termination).relimit limit = state.stop termination :=
  relimit_eq_self limit (by simp)

/-- A stop does not show the limit. -/
theorem stop_relimit
    (limit : Option Milliseconds)
    (state : State)
    (time : Milliseconds)
    (termination : Termination) :
    ((state.relimit limit).waitUntil time).stop termination =
      (state.waitUntil time).stop termination := by
  obtain ⟨now, phase, decoder, failures, attempts, forwarded, connects,
    past⟩ := state
  cases phase <;> rfl

private theorem report?_relimit (limit : Option Milliseconds) (state : State) :
    (state.relimit limit).report? = state.report? := by
  obtain ⟨now, phase, decoder, failures, attempts, forwarded, connects,
    past⟩ := state
  cases phase <;> rfl

/-- A run that is left alone does not show its limit. -/
theorem leaveAt_relimit
    (limit : Option Milliseconds)
    (state : State)
    (horizon : Milliseconds) :
    (state.relimit limit).leaveAt horizon = state.leaveAt horizon := by
  simp only [leaveAt, report?_relimit]
  simp only [relimit, enter, Phase.isOpen_relimit]
  rfl

end State

/-- No step but the beginning of a read leads to a read. -/
theorem Scenario.Transition.notReading
    {scenario : Scenario}
    {state next : State}
    {events : List Event}
    (transition : scenario.Transition state events next)
    (notStreaming : ∀ reads, state.phase ≠ .streaming reads)
    (notReading : ∀ due deadline answer reads,
      state.phase ≠ .reading due deadline answer reads) :
    ∀ due deadline answer reads,
      next.phase ≠ .reading due deadline answer reads := by
  cases transition with
  | dialSilent | readSilent =>
      exact notReading
  | reading _ phase =>
      exact (notStreaming _ phase).elim
  | _ =>
      simp [Scenario.leave, Scenario.backOff]

section Relimiting

variable {scenario : Scenario} {first second : Option Milliseconds}
variable {state : State}

namespace Scenario

variable (first second) in
/-- Away from reads a step does not depend on the limit. -/
theorem step?_withIdleLimit
    (notStreaming : ∀ reads, state.phase ≠ .streaming reads)
    (notReading : ∀ due deadline answer reads,
      state.phase ≠ .reading due deadline answer reads) :
    (scenario.withIdleLimit second).step? state =
      (scenario.withIdleLimit first).step? state := by
  cases phase : state.phase with
  | streaming reads =>
      exact (notStreaming reads phase).elim
  | reading due deadline answer reads =>
      exact (notReading due deadline answer reads phase).elim
  | ended termination =>
      rw [step?, step?, phase]
  | _ =>
      rw [step?, step?, phase]
      rfl

/-- The beginning of a read sets the limit. -/
theorem stepStreaming_withIdleLimit (reads : List TimedRead) :
    (scenario.withIdleLimit second).stepStreaming state reads =
      ((scenario.withIdleLimit first).stepStreaming state reads).relimit
        second := by
  have wakes :
      (scenario.withIdleLimit second).wake state (some state.now) =
        (scenario.withIdleLimit first).wake state (some state.now) :=
    rfl
  rw [stepStreaming, stepStreaming, wakes]
  split
  · rw [State.relimit_stop]
  · rfl

variable (first second) in
/-- An answer to a read is dealt with whatever the limit of the read was. -/
private theorem answered_withIdleLimit
    {answer : ReadAnswer}
    (reads : List TimedRead)
    (time : Milliseconds)
    (speaks : answer ≠ .silent) :
    (scenario.withIdleLimit second).answered
        ((state.relimit second).waitUntil time) answer reads =
      ((scenario.withIdleLimit first).answered
        (state.waitUntil time) answer reads).relimit second := by
  cases answer with
  | silent =>
      exact (speaks rfl).elim
  | _ =>
      rfl

/-- Two limits that the answer to a read keeps lead to the same step. -/
private theorem stepReading_withIdleLimit
    {read : TimedRead}
    (reads : List TimedRead)
    (withinFirst : read.isWithin first = true)
    (withinSecond : read.isWithin second = true) :
    (scenario.withIdleLimit second).stepReading (state.relimit second)
        (read.due state.now) (second.map (state.now + ·)) read.answer reads =
      ((scenario.withIdleLimit first).stepReading state
        (read.due state.now) (first.map (state.now + ·)) read.answer
          reads).map (State.relimit second) := by
  have wakes :
      (scenario.withIdleLimit second).wake (state.relimit second)
          (read.due state.now) =
        (scenario.withIdleLimit first).wake state (read.due state.now) :=
    rfl
  simp only [stepReading, read.comesInTime_eq_isWithin, withinFirst,
    withinSecond, if_true]
  rw [wakes]
  cases woken :
      (scenario.withIdleLimit first).wake state (read.due state.now) with
  | stopped time termination =>
      simp only [State.stop_relimit, Option.map_some, State.relimit_stop]
  | ready time =>
      have speaks : read.answer ≠ .silent := by
        intro silent
        obtain ⟨isDue, -⟩ := wake_eq_ready woken
        rw [read.due_of_silent silent] at isDue
        cases isDue
      simp only [Option.map_some,
        answered_withIdleLimit first second reads time speaks]
  | never =>
      rfl

end Scenario

/--
With limits that no read exceeds every step leads to the same state but for
the limit of the read that is awaited.
-/
theorem Reaches.step?_relimit
    (reaches :
      Reaches (scenario.withIdleLimit first)
        (scenario.withIdleLimit first).initial state)
    (within : ∀ read ∈ scenario.reads,
      read.isWithin first = true ∧ read.isWithin second = true) :
    (scenario.withIdleLimit second).step? (state.relimit second) =
      ((scenario.withIdleLimit first).step? state).map
        (State.relimit second) := by
  cases phase : state.phase with
  | streaming reads =>
      have same : state.relimit second = state :=
        State.relimit_eq_self second (by simp [phase])
      rw [same, Scenario.step?, Scenario.step?, phase]
      exact congrArg some (Scenario.stepStreaming_withIdleLimit reads)
  | reading due deadline answer reads =>
      obtain ⟨-, rfl, read, isScripted, rfl, rfl⟩ :=
        reaches.scripted.awaited phase
      have keeps :
          read.isWithin first = true ∧ read.isWithin second = true := by
        rcases isScripted with member | rfl
        · exact within read member
        · exact ⟨TimedRead.isWithin_ended _, TimedRead.isWithin_ended _⟩
      have relimited :
          (state.relimit second).phase =
            .reading (read.due state.now) (second.map (state.now + ·))
              read.answer reads := by
        rw [State.relimit, phase]
        rfl
      rw [Scenario.step?, Scenario.step?, relimited, phase]
      exact Scenario.stepReading_withIdleLimit reads keeps.1 keeps.2
  | _ =>
      have notStreaming : ∀ reads, state.phase ≠ .streaming reads := by
        simp [phase]
      have notReading : ∀ due deadline answer reads,
          state.phase ≠ .reading due deadline answer reads := by
        simp [phase]
      rw [State.relimit_eq_self second notReading,
        Scenario.step?_withIdleLimit first second notStreaming notReading]
      cases steps : (scenario.withIdleLimit first).step? state with
      | none =>
          rfl
      | some next =>
          obtain ⟨events, transition⟩ := Scenario.Transition.of_step? steps
          rw [Option.map_some, State.relimit_eq_self second
            (transition.notReading notStreaming notReading)]

/--
A run with limits that no read exceeds is the same for both but for the limit
of the read that is awaited.
-/
theorem Scenario.runFrom_relimit
    (within : ∀ read ∈ scenario.reads,
      read.isWithin first = true ∧ read.isWithin second = true)
    (horizon : Milliseconds)
    (steps : Nat)
    (reaches :
      Reaches (scenario.withIdleLimit first)
        (scenario.withIdleLimit first).initial state) :
    (scenario.withIdleLimit second).runFrom horizon steps
        (state.relimit second) =
      ((scenario.withIdleLimit first).runFrom horizon steps state).relimit
        second := by
  induction steps generalizing state with
  | zero =>
      rfl
  | succ steps inductionHypothesis =>
      rw [runFrom, runFrom, reaches.step?_relimit within]
      cases taken : (scenario.withIdleLimit first).step? state with
      | none =>
          rfl
      | some next =>
          have later := reaches.trans (.step taken (.refl next))
          simp only [Option.map_some]
          change (if horizon < next.now then _ else _) = _
          split
          · rfl
          · exact inductionHypothesis later

/-- What one limit lets a run reach, the other lets it reach as well. -/
theorem Reaches.relimit
    (within : ∀ read ∈ scenario.reads,
      read.isWithin first = true ∧ read.isWithin second = true)
    (reaches :
      Reaches (scenario.withIdleLimit first)
        (scenario.withIdleLimit first).initial state) :
    Reaches (scenario.withIdleLimit second)
      (scenario.withIdleLimit second).initial (state.relimit second) := by
  refine reaches.invariant_of_reachable
    (fun state => Reaches (scenario.withIdleLimit second)
      (scenario.withIdleLimit second).initial (state.relimit second))
    ?_ (.refl _)
  intro state events next toState transition toOther
  have steps := toState.step?_relimit within
  rw [transition.step?_eq, Option.map_some] at steps
  exact toOther.trans (.step steps (.refl _))

end Relimiting

/-- What the idle limit means to the reads of a session. -/
structure KeepsIdleLimit (scenario : Scenario) (state : State) : Prop where
  /-- A read that is awaited began when the last thing happened. -/
  began :
    ∀ {limit due deadline answer reads},
      scenario.settings.idleLimit = some limit →
      state.phase = .reading due deadline answer reads →
      state.history.getLast? = some ⟨state.now, .reading⟩
  /-- At its deadline the connection is left because of silence exactly if the
      read is still pending. -/
  leavesIff :
    ∀ {limit due deadline answer reads},
      scenario.settings.idleLimit = some limit →
      state.phase = .reading due deadline answer reads →
      ((∃ next failures delay,
          scenario.step? state = some next ∧
            next.history =
              state.history ++
                leavingIdle limit (state.now + limit) failures delay) ↔
        StillPending scenario state due limit)
  /-- An answer that comes until the deadline is dealt with, unless the session
      must stop until then. -/
  answered :
    ∀ {limit deadline answer reads moment},
      scenario.settings.idleLimit = some limit →
      state.phase = .reading (some moment) deadline answer reads →
      moment ≤ state.now + limit →
      (∀ earlier, state.now ≤ earlier → earlier ≤ moment →
        scenario.stopReason? earlier state.forwarded = none) →
      scenario.step? state =
        some (scenario.answered (state.waitUntil moment) answer reads)
  /-- A connection that was left because of silence was left at the deadline of
      a read that was still pending. -/
  caused :
    ∀ {before after limit time failures delay},
      state.history =
        before ++
          ⟨time, .backedOff (.read (.idle limit)) failures delay⟩ :: after →
      ∃ origin due deadline answer reads,
        Reaches scenario scenario.initial origin ∧
          scenario.settings.idleLimit = some limit ∧
          origin.phase = .reading due deadline answer reads ∧
          StillPending scenario origin due limit ∧
          time = origin.now + limit ∧
          before = origin.history ++ [⟨time, .closed⟩]

/-- Two scenarios in which the same happens at the same times. -/
structure SameRuns (first second : Scenario) : Prop where
  /-- Runs that are left at the same time leave the same behind. -/
  runs : ∀ horizon, first.run horizon = second.run horizon
  /-- Whatever is reached in the first scenario is reached in the second. -/
  reached :
    ∀ {state},
      Reaches first first.initial state →
      ∃ other,
        Reaches second second.initial other ∧
          other.now = state.now ∧
          other.history = state.history ∧
          other.report? = state.report?

/--
The idle limit is counted for each read from when it began, after all
deliveries before it.  At the deadline, and at no other time, a connection is
left because of silence: exactly if the read is still pending, which means
that no answer came, not even at the deadline, and that the session need not
stop until then.  Hence a run does not depend on the limit, or on whether
there is one, as long as no read of the script exceeds it.
-/
theorem idle_limit_is_kept (scenario : Scenario) :
    (∀ {state},
        Reaches scenario scenario.initial state →
        KeepsIdleLimit scenario state) ∧
      ∀ {first second},
        (∀ read ∈ scenario.reads,
          read.isWithin first = true ∧ read.isWithin second = true) →
        SameRuns (scenario.withIdleLimit first)
          (scenario.withIdleLimit second) := by
  refine ⟨?eachRead, ?twoLimits⟩
  case eachRead =>
    intro state reaches
    exact
      { began := fun _ phase => (reaches.scripted.awaited phase).1
        leavesIff := reaches.leaves_idle_iff
        answered := reaches.answered_in_time
        caused := reaches.pending_of_backedOff }
  case twoLimits =>
    intro first second within
    refine ⟨?runs, ?reached⟩
    case runs =>
      intro horizon
      have same :
          (scenario.withIdleLimit second).stateAt horizon =
            ((scenario.withIdleLimit first).stateAt horizon).relimit second :=
        Scenario.runFrom_relimit within horizon _ (.refl _)
      rw [Scenario.run, Scenario.run, same, State.leaveAt_relimit]
    case reached =>
      intro state reaches
      exact ⟨_, reaches.relimit within, rfl, rfl,
        State.report?_relimit second state⟩

/--
Of two reads that take two and four milliseconds, both keep a limit of four,
and the second one breaks a limit of three.
-/
theorem idle_limit_of_threeEvents :
    let scenario := Scenario.streamOf 64 [threeEvents]
    let short := scenario.withIdleLimit (some 3)
    (∀ horizon,
        (scenario.withIdleLimit (some 4)).run horizon =
          (scenario.withIdleLimit none).run horizon) ∧
      ∃ origin due,
        Reaches short short.initial origin ∧
          StillPending short origin due 3 ∧
            origin.now = 5 ∧
              (short.stateAt 8).history =
                origin.history ++ leavingIdle 3 8 1 5 := by
  intro scenario short
  have within : ∀ read ∈ scenario.reads,
      read.isWithin (some 4) = true ∧ read.isWithin none = true := by
    decide +kernel
  have split :
      (short.stateAt 8).history =
        (short.stateAt 8).history.dropLast ++
          ⟨8, .backedOff (.read (.idle 3)) 1 5⟩ :: [] := by
    decide +kernel
  obtain ⟨-, twoLimits⟩ := idle_limit_is_kept scenario
  obtain ⟨eachRead, -⟩ := idle_limit_is_kept short
  obtain ⟨origin, due, _, _, _, toOrigin, -, -, pending, time, shape⟩ :=
    (eachRead (short.reaches_stateAt 8)).caused split
  refine ⟨(twoLimits within).runs, origin, due, toOrigin, pending, ?_, ?_⟩
  · have began : 5 + 3 = origin.now + 3 := time
    exact (Nat.add_right_cancel began).symm
  · rw [split, shape, List.append_assoc]
    rfl

end EventRelay.Session
