import EventRelay.Proofs.Session.Reachable

namespace EventRelay.Session

/-!
# Reads of the script

Every read of a session is one of its script, or that of a stream which has
ended.  A read that is awaited began at the present time, and its limit is
counted from then.
-/

open Timing (Milliseconds)

/-- The reads of the stream that an answer opens. -/
def ConnectAnswer.reads : ConnectAnswer → List TimedRead
  | .opened reads =>
      reads
  | _ =>
      []

/-- The reads that are still to come on the stream of a phase. -/
def Phase.reads : Phase → List TimedRead
  | .dialing _ answer =>
      answer.reads
  | .streaming reads =>
      reads
  | .reading _ _ _ reads =>
      reads
  | .delivering reads =>
      reads
  | .emitting _ _ reads =>
      reads
  | _ =>
      []

/-- The reads that the attempts of a scenario lead to. -/
def Scenario.reads (scenario : Scenario) : List TimedRead :=
  (scenario.connects ++ [scenario.afterwards]).flatMap (·.answer.reads)

private theorem Scenario.mem_reads
    {scenario : Scenario}
    {connect : TimedConnect}
    {read : TimedRead}
    (isPlanned :
      connect ∈ scenario.connects ∨ connect = scenario.afterwards)
    (member : read ∈ connect.answer.reads) :
    read ∈ scenario.reads :=
  List.mem_flatMap.mpr ⟨connect, by simpa using isPlanned, member⟩

theorem TimedRead.due_of_silent
    {read : TimedRead}
    (silent : read.answer = .silent)
    (now : Milliseconds) :
    read.due now = none := by
  rw [due, silent]

/--
What is still to come is in the script, and a read that is awaited began now.
-/
structure Scripted (scenario : Scenario) (state : State) : Prop where
  connects : ∀ connect ∈ state.connects, connect ∈ scenario.connects
  reads : ∀ read ∈ state.phase.reads, read ∈ scenario.reads
  awaited :
    ∀ {due limit answer reads},
      state.phase = .reading due limit answer reads →
        state.history.getLast? = some ⟨state.now, .reading⟩ ∧
          limit = scenario.settings.idleLimit.map (state.now + ·) ∧
            ∃ read,
              (read ∈ scenario.reads ∨ read = .ended) ∧
                due = read.due state.now ∧ answer = read.answer

namespace Scripted

variable {scenario : Scenario} {state : State}

private theorem initial : Scripted scenario scenario.initial where
  connects _ member := member
  reads := nofun
  awaited := nofun

/-- A phase that awaits no read has nothing to say about one. -/
theorem of_reads
    {next : State}
    (scripted : Scripted scenario state)
    (connects : next.connects = state.connects)
    (reads : ∀ read ∈ next.phase.reads, read ∈ state.phase.reads)
    (notReading : ∀ due limit answer reads,
      next.phase ≠ .reading due limit answer reads) :
    Scripted scenario next where
  connects := by
    rw [connects]
    exact scripted.connects
  reads read member := scripted.reads read (reads read member)
  awaited phase := (notReading _ _ _ _ phase).elim

/-- A session that has stopped awaits nothing. -/
private theorem stop
    {next : State}
    (scripted : Scripted scenario state)
    (connects : next.connects = state.connects)
    (termination : Termination) :
    Scripted scenario (next.stop termination) := by
  have sameConnects :
      (next.stop termination).connects = state.connects := by
    rw [← connects]
    unfold State.stop
    split <;> rfl
  exact scripted.of_reads sameConnects
    (by simp [Phase.reads]) (by simp)

/-- What is awaited never comes if the answer is silence. -/
private theorem not_ready_of_silent
    {due limit : Option Milliseconds}
    {reads : List TimedRead}
    {time : Milliseconds}
    (scripted : Scripted scenario state)
    (phase : state.phase = .reading due limit .silent reads) :
    scenario.wake state due ≠ .ready time := by
  intro wakes
  obtain ⟨-, -, read, -, rfl, silent⟩ := scripted.awaited phase
  obtain ⟨isDue, -⟩ := Scenario.wake_eq_ready wakes
  rw [read.due_of_silent silent.symm] at isDue
  cases isDue

end Scripted

/-- A transition keeps to the script. -/
theorem Scenario.Transition.scripted
    {scenario : Scenario}
    {state next : State}
    {events : List Event}
    (transition : scenario.Transition state events next)
    (before : Scripted scenario state) :
    Scripted scenario next := by
  have inScript := before.reads
  cases transition with
  | attemptStopped | dialStopped | streamStopped | readStopped
  | deliveryStopped | emitStopped | turnedAway | pauseStopped =>
      exact before.stop (by rfl) _
  | called connect phase wakes scripted =>
      have isPlanned :
          connect ∈ scenario.connects ∨ connect = scenario.afterwards := by
        rw [← scripted]
        cases planned : state.connects with
        | nil =>
            exact .inr rfl
        | cons first others =>
            exact .inl (before.connects first (by simp [planned]))
      exact
        { connects := fun connect member =>
            before.connects connect (List.mem_of_mem_tail member)
          reads := fun read member => mem_reads isPlanned member
          awaited := by rintro _ _ _ _ ⟨⟩ }
  | opened phase | drained phase | accepted phase =>
      rw [phase] at inScript
      exact ⟨before.connects, inScript, by rintro _ _ _ _ ⟨⟩⟩
  | dialSilent phase =>
      exact before.of_reads rfl (fun _ member => member)
        (by simp [State.waitUntil, phase])
  | @reading coming time read phase wakes scripted =>
      rw [phase] at inScript
      refine ⟨before.connects, fun read member =>
        inScript read (List.mem_of_mem_tail member), ?_⟩
      rintro due limit answer reads ⟨⟩
      refine ⟨?_, rfl, read, ?_, rfl, rfl⟩
      · rw [State.history_enter, State.history_record]
        exact List.getLast?_concat
      · rw [← scripted]
        cases coming with
        | nil =>
            exact .inr rfl
        | cons first others =>
            exact .inl (inScript first List.mem_cons_self)
  | readSilent phase inTime wakes =>
      exact (before.not_ready_of_silent phase wakes).elim
  | received phase | offered event phase =>
      rw [phase] at inScript
      exact ⟨before.connects, inScript, by rintro _ _ _ _ ⟨⟩⟩
  | refused | readFailed | readEnded | readIdle | tooLarge | resumed =>
      exact ⟨before.connects, by rintro _ ⟨⟩, by rintro _ _ _ _ ⟨⟩⟩

theorem Reaches.scripted
    {scenario : Scenario}
    {state : State}
    (reaches : Reaches scenario scenario.initial state) :
    Scripted scenario state :=
  reaches.invariant (Scripted scenario) Scenario.Transition.scripted .initial

end EventRelay.Session
