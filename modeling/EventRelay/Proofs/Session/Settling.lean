import EventRelay.Proofs.Session.Chunking

namespace EventRelay.Session

/-!
# Reading on to the next frame

While the chunks of a stream come without a wait, nothing is seen from outside
until a frame is complete.  A session that need not stop reads on until it is
about to give that frame to the consumer, or to read the ending of the stream.
A session that must stop does so wherever it is among the chunks.
-/

open Reference (cut?)
open Timing (Milliseconds)

namespace Scenario

variable {scenario : Scenario}
variable {state : State}

/-- A read begins unseen. -/
theorem alike_reading (state : State) (phase : Phase) :
    state.Alike ((state.record .reading).enter phase) :=
  (State.Alike.recorded state rfl).trans (.entered _ phase)

/-- Bytes come unseen. -/
theorem alike_received
    (state : State)
    (bytes : List UInt8)
    (reads : List TimedRead) :
    state.Alike
      (({ state with decoder := state.decoder.feed bytes }.record
        (.received bytes)).enter (.delivering reads)) :=
  (State.Alike.decoding state (state.decoder.feed bytes) rfl).trans
    ((State.Alike.recorded _ rfl).trans (.entered _ _))

/-- That no frame is complete is not seen from outside. -/
theorem alike_drained
    {decoder : Decoder}
    {found : Option Frame}
    (next : state.decoder.next = (found, decoder))
    (phase : Phase) :
    state.Alike ({ state with decoder }.enter phase) := by
  have limit : decoder.limit = state.decoder.limit := by
    rw [← state.decoder.next_limit, next]
  exact (State.Alike.decoding state decoder limit).trans (.entered _ phase)

/-- A read that is answered at once is answered in time. -/
theorem comesInTime_at_once (now : Milliseconds) (idle : Option Milliseconds) :
    comesInTime (some now) (idle.map (now + ·)) = true := by
  cases idle with
  | none =>
      rfl
  | some idle =>
      exact decide_eq_true (Nat.le_add_right now idle)

/-- States that look alike find alike whether they must stop now. -/
theorem wake_now_of_alike
    {next : State}
    (alike : state.Alike next)
    {found : Wake}
    (wakes : scenario.wake state (some state.now) = found) :
    scenario.wake next (some next.now) = found := by
  have same : SameSurroundings scenario scenario := ⟨rfl, rfl, rfl, rfl, rfl⟩
  rw [← alike.now, ← same.wake_eq alike]
  exact wakes

/-- A look whether to stop takes no time. -/
theorem now_of_wake_ready
    {time : Milliseconds}
    (wakes : scenario.wake state (some state.now) = .ready time) :
    time = state.now :=
  (Option.some.inj (wake_eq_ready wakes).1).symm

/-- A stop that is found at once takes no time. -/
theorem le_of_wake_stopped
    {time : Milliseconds}
    {termination : Termination}
    (wakes :
      scenario.wake state (some state.now) = .stopped time termination) :
    time ≤ state.now :=
  (wake_eq_stopped wakes).2.1 _ rfl

/-- A run from one state to another, of which nothing is seen from outside. -/
structure ReadsOn (scenario : Scenario) (state next : State) : Prop where
  reaches : Reaches scenario state next
  alike : state.Alike next
  connects : next.connects = state.connects

namespace ReadsOn

private theorem refl (state : State) : ReadsOn scenario state state :=
  ⟨.refl state, .refl state, rfl⟩

private theorem trans
    {next last : State}
    (before : ReadsOn scenario state next)
    (after : ReadsOn scenario next last) :
    ReadsOn scenario state last :=
  ⟨before.reaches.trans after.reaches, before.alike.trans after.alike,
    after.connects.trans before.connects⟩

end ReadsOn

/--
The first of the frames that a stream still brings is about to be given, or
there is none and the ending is about to be read.
-/
inductive Settled
    (frames : List Frame)
    (ending : List TimedRead)
    (state : State) : Prop where
  | given
      {frame : Frame} {later : List Frame}
      {pieces : List (List UInt8)} {decoder : Decoder}
      (shape : frames = frame :: later)
      (phase : state.phase = .delivering (atOnce pieces ++ ending))
      (next : state.decoder.next = (some frame, decoder))
      (yields : decoder.Yields pieces later)
  | read
      (shape : frames = [])
      (phase : state.phase = .streaming ending)

/-- The next frame is complete, or else reading goes on. -/
theorem gives_or_drains
    (scenario : Scenario)
    {reads : List TimedRead}
    {pieces : List (List UInt8)}
    {frames : List Frame}
    (phase : state.phase = .delivering reads)
    (yields : state.decoder.Yields pieces frames) :
    (∃ frame later decoder,
        frames = frame :: later ∧
          state.decoder.next = (some frame, decoder) ∧
          decoder.Yields pieces later) ∨
      ∃ next,
        ReadsOn scenario state next ∧
          next.phase = .streaming reads ∧
          next.decoder.Yields pieces frames ∧
          cut? next.decoder.buffer = none := by
  obtain ⟨later, shape, rest, idle⟩ := yields.next
  rcases next : state.decoder.next with ⟨found, decoder⟩
  rw [next] at shape rest idle
  cases found with
  | some frame =>
      exact .inl ⟨frame, later, decoder, shape, rfl, rest⟩
  | none =>
      obtain ⟨uncut, within⟩ := idle rfl
      subst shape
      have drains : ReadsOn scenario state
          ({ state with decoder }.enter (.streaming reads)) :=
        ⟨.of_transition (.drained phase next within), alike_drained next _,
          rfl⟩
      exact .inr ⟨_, drains, rfl, rest, uncut⟩

section

variable {frames : List Frame}
variable {ending : List TimedRead}
variable {piece : List UInt8}
variable {pieces : List (List UInt8)}
variable {time : Milliseconds}
variable (ready : scenario.wake state (some state.now) = .ready time)

include ready

/-- The chunk that is waited for comes. -/
theorem receives_of_reading
    {idle : Option Milliseconds}
    {reads : List TimedRead}
    (phase : state.phase = .reading (some state.now) idle (.chunk piece) reads)
    (inTime : comesInTime (some state.now) idle = true) :
    ∃ next,
      ReadsOn scenario state next ∧
        next.phase = .delivering reads ∧
        next.decoder = state.decoder.feed piece := by
  have atOnce : time ≤ state.now := Nat.le_of_eq (now_of_wake_ready ready)
  have alike := (State.Alike.waited state atOnce).trans
    (alike_received (state.waitUntil time) piece reads)
  exact ⟨_, ⟨.of_transition (.received phase inTime ready), alike, rfl⟩, rfl,
    rfl⟩

/-- The next chunk that comes at once is read. -/
private theorem receives_of_streaming
    {reads : List TimedRead}
    (phase : state.phase = .streaming (⟨0, .chunk piece⟩ :: reads)) :
    ∃ next,
      ReadsOn scenario state next ∧
        next.phase = .delivering reads ∧
        next.decoder = state.decoder.feed piece := by
  have begins := Transition.reading _ phase ready rfl
  have alike := alike_reading state
    (.reading (some state.now) (scenario.settings.idleLimit.map (state.now + ·))
      (.chunk piece) reads)
  obtain ⟨next, receives, rest⟩ :=
    receives_of_reading (wake_now_of_alike alike ready) rfl
      (comesInTime_at_once state.now scenario.settings.idleLimit)
  exact ⟨next, .trans ⟨.of_transition begins, alike, rfl⟩ receives, rest⟩

/-- Chunks are read until one of them completes a frame. -/
theorem settles_of_streaming
    (phase : state.phase = .streaming (atOnce pieces ++ ending))
    (yields : state.decoder.Yields pieces frames)
    (uncut : cut? state.decoder.buffer = none) :
    ∃ settled,
      ReadsOn scenario state settled ∧ Settled frames ending settled := by
  induction pieces generalizing state with
  | nil =>
      exact ⟨state, .refl state, .read (yields.frames_eq_nil uncut) phase⟩
  | cons piece pieces inductionHypothesis =>
      obtain ⟨received, receives, delivering, fed⟩ :=
        receives_of_streaming ready phase
      rcases gives_or_drains scenario delivering (fed ▸ yields.feed) with
          ⟨frame, later, decoder, shape, next, rest⟩ |
          ⟨drained, drains, streaming, rest, uncutRest⟩
      · exact ⟨received, receives, .given shape delivering next rest⟩
      · have readsOn := receives.trans drains
        obtain ⟨settled, more, settles⟩ :=
          inductionHypothesis (wake_now_of_alike readsOn.alike ready)
            streaming rest uncutRest
        exact ⟨settled, readsOn.trans more, settles⟩

/-- A frame that is complete is given at once. -/
private theorem settles_of_delivering
    (phase : state.phase = .delivering (atOnce pieces ++ ending))
    (yields : state.decoder.Yields pieces frames) :
    ∃ settled,
      ReadsOn scenario state settled ∧ Settled frames ending settled := by
  rcases gives_or_drains scenario phase yields with
      ⟨frame, later, decoder, shape, next, rest⟩ |
      ⟨drained, drains, streaming, rest, uncut⟩
  · exact ⟨state, .refl state, .given shape phase next rest⟩
  · obtain ⟨settled, more, settles⟩ :=
      settles_of_streaming (wake_now_of_alike drains.alike ready) streaming
        rest uncut
    exact ⟨settled, drains.trans more, settles⟩

/-- A stream is read until a frame is about to be given, or to its ending. -/
theorem settles
    (brings : Brings state.now frames ending state.phase state.decoder) :
    ∃ settled,
      ReadsOn scenario state settled ∧ Settled frames ending settled := by
  generalize phase : state.phase = current at brings
  generalize held : state.decoder = decoder at brings
  cases brings with
  | streaming yields uncut =>
      subst held
      exact settles_of_streaming ready phase yields uncut
  | reading inTime yields =>
      obtain ⟨received, receives, delivering, fed⟩ :=
        receives_of_reading ready phase inTime
      rw [held] at fed
      obtain ⟨settled, more, settles⟩ :=
        settles_of_delivering (wake_now_of_alike receives.alike ready)
          delivering (fed ▸ yields.feed)
      exact ⟨settled, receives.trans more, settles⟩
  | delivering yields =>
      subst held
      exact settles_of_delivering ready phase yields

end

/-- A stream that must be left now is left with nothing more being seen. -/
theorem stops
    {frames : List Frame}
    {ending : List TimedRead}
    {time : Milliseconds}
    {termination : Termination}
    (stays : ∀ time taken, scenario.isDetached time taken = false)
    (stopped :
      scenario.wake state (some state.now) = .stopped time termination)
    (brings : Brings state.now frames ending state.phase state.decoder) :
    ∃ last,
      Reaches scenario state last ∧
        (state.stop termination).Alike last ∧
        last.connects = state.connects ∧
        last.phase = .ended termination := by
  generalize phase : state.phase = current at brings
  generalize held : state.decoder = decoder at brings
  cases brings with
  | streaming yields uncut =>
      exact ⟨_, .of_transition (.streamStopped phase stopped), .refl _,
        State.connects_stop _ _, State.phase_stop _ _⟩
  | @reading _ _ idle _ inTime yields =>
      have wakes :
          scenario.wake state
              (if comesInTime (some state.now) idle then some state.now
                else idle) =
            .stopped time termination := by
        rw [inTime]
        exact stopped
      exact ⟨_, .of_transition (.readStopped phase wakes),
        (State.Alike.waited state (le_of_wake_stopped stopped)).stop rfl _,
        State.connects_stop _ _, State.phase_stop _ _⟩
  | delivering yields =>
      rcases gives_or_drains scenario phase (held ▸ yields) with
          ⟨frame, later, decoder, -, next, -⟩ |
          ⟨drained, drains, streaming, -⟩
      · have limit : decoder.limit = state.decoder.limit := by
          rw [← state.decoder.next_limit, next]
        have cancelled := wakeForCancel_of_stays stays state (some state.now)
        exact ⟨_, .of_transition (.deliveryStopped phase next
            (cancelled.trans stopped)),
          (State.Alike.decoding state decoder limit).stop rfl _,
          State.connects_stop _ _, State.phase_stop _ _⟩
      · have bothOpen : state.phase.isOpen = drained.phase.isOpen := by
          rw [phase, streaming]
          rfl
        exact ⟨_, drains.reaches.trans (.of_transition
            (.streamStopped streaming
              (wake_now_of_alike drains.alike stopped))),
          drains.alike.stop bothOpen termination,
          (State.connects_stop _ _).trans drains.connects,
          State.phase_stop _ _⟩

end Scenario

end EventRelay.Session
