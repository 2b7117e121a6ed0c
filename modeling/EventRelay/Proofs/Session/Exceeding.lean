import EventRelay.Proofs.Session.Recutting

namespace EventRelay.Session

/-!
# Streams whose bytes exceed the limit

Some cutting of the bytes of a stream that do not fit the limit makes the
session leave the stream: after the frames that are complete, too many bytes
wait.  Only a stop can come before that, or a consumer that never answers.
The limit at which cutting begins to matter is therefore exact.
-/

open Timing (Milliseconds)

/-- From one state a run comes to another, and its stream is not closed. -/
structure KeepsOpen (scenario : Scenario) (start state : State) : Prop where
  reaches : Reaches scenario start state
  history :
    ∃ between,
      state.history = start.history ++ between ∧
        ∀ timed ∈ between, timed.event ≠ .closed

namespace KeepsOpen

variable {scenario : Scenario}
variable {start state next : State}

private theorem refl (start : State) : KeepsOpen scenario start start where
  reaches := .refl start
  history := ⟨[], (List.append_nil _).symm, fun _ among => nomatch among⟩

private theorem trans
    (before : KeepsOpen scenario start state)
    (after : KeepsOpen scenario state next) :
    KeepsOpen scenario start next where
  reaches := before.reaches.trans after.reaches
  history := by
    obtain ⟨earlier, earlierShape, earlierOpen⟩ := before.history
    obtain ⟨later, laterShape, laterOpen⟩ := after.history
    refine ⟨earlier ++ later, ?_, ?_⟩
    · rw [laterShape, earlierShape, List.append_assoc]
    · exact List.forall_mem_append.mpr ⟨earlierOpen, laterOpen⟩

/-- A transition that records no close keeps the stream open. -/
theorem of_transition
    {events : List Event}
    (transition : scenario.Transition start events next)
    (notClosed : ∀ event ∈ events, event ≠ .closed) :
    KeepsOpen scenario start next where
  reaches := .of_transition transition
  history := by
    refine ⟨_, transition.history, ?_⟩
    simpa using notClosed

end KeepsOpen

/-- What becomes of a stream on which too many bytes come to wait. -/
inductive Exceeds (scenario : Scenario) (start : State) : Prop where
  /-- The session leaves it for that reason. -/
  | tooLarge {origin last : State} {error : FrameTooLarge}
      (keepsOpen : KeepsOpen scenario start origin)
      (leaves :
        scenario.Transition origin
          [.closed, scenario.backoffEvent origin (.read (.tooLarge error))]
          last)
  /-- The session is stopped before. -/
  | stopped {origin last : State} {termination : Termination}
      (turned : List Event)
      (keepsOpen : KeepsOpen scenario start origin)
      (stops :
        scenario.Transition origin
          (turned ++
            [.closed, .ended termination origin.attempts origin.forwarded])
          last)
  /-- The consumer never answers, and the session is never cancelled. -/
  | unanswered {origin : State} {due : Option Milliseconds}
      {event : Downstream.Event} {reads : List TimedRead}
      (keepsOpen : KeepsOpen scenario start origin)
      (phase : origin.phase = .emitting due event reads)
      (never : scenario.step? origin = none)

namespace Exceeds

variable {scenario : Scenario}
variable {start state : State}

/-- What becomes of a stream may take some steps to begin with. -/
theorem after
    (keepsOpen : KeepsOpen scenario start state)
    (exceeds : Exceeds scenario state) :
    Exceeds scenario start := by
  cases exceeds with
  | tooLarge later leaves =>
      exact .tooLarge (keepsOpen.trans later) leaves
  | stopped turned later stops =>
      exact .stopped turned (keepsOpen.trans later) stops
  | unanswered later phase never =>
      exact .unanswered (keepsOpen.trans later) phase never

/-- The consumer is waited for, and afterwards delivery goes on. -/
private theorem of_emitting
    {due : Option Milliseconds}
    {event : Downstream.Event}
    {reads : List TimedRead}
    (phase : state.phase = .emitting due event reads)
    (goesOn :
      ∀ next,
        next.phase = .delivering reads →
        next.decoder = state.decoder →
        Exceeds scenario next) :
    Exceeds scenario state := by
  cases wakes : scenario.wakeForCancel state due with
  | stopped time termination =>
      exact .stopped [] (.refl state) (.emitStopped phase wakes)
  | never =>
      refine .unanswered (.refl state) phase ?_
      rw [Scenario.step?, phase]
      simp only [Scenario.stepEmitting, wakes]
  | ready time =>
      cases takes : scenario.consumer.takes state.forwarded with
      | false =>
          exact .stopped [_] (.refl state) (.turnedAway phase wakes takes)
      | true =>
          have accepted := Scenario.Transition.accepted phase wakes takes
          exact .after (.of_transition accepted (by simp)) (goesOn _ rfl rfl)

/-- Frame by frame is delivered, until the bytes that wait are too many. -/
private theorem of_delivering
    {reads : List TimedRead}
    (phase : state.phase = .delivering reads)
    (searched : state.decoder.Searched)
    (long :
      state.decoder.limit < (Reference.tail state.decoder.buffer).length) :
    Exceeds scenario state := by
  -- Each frame that is taken uses up bytes but none of the tail.
  induction size : state.decoder.buffer.length using Nat.strongRecOn
    generalizing state with
  | ind size inductionHypothesis =>
      subst size
      have longNext := state.decoder.tail_next_exceeds searched long
      have refused := state.decoder.checkCapacity_of_exceeds searched long
      have fewer := state.decoder.length_next_le
      obtain ⟨removed, taken, -⟩ := searched.follows_next
      rcases next : state.decoder.next with ⟨found, decoder⟩
      rw [next] at longNext refused fewer taken
      cases found with
      | none =>
          exact .tooLarge (.refl state)
            (.tooLarge phase next (refused rfl))
      | some frame =>
          cases wakes : scenario.wakeForCancel state (some state.now) with
          | stopped time termination =>
              exact .stopped [] (.refl state)
                (.deliveryStopped phase next wakes)
          | never =>
              cases (Scenario.wakeAt_eq_never wakes).1
          | ready time =>
              have offers := Scenario.Transition.offered _ phase next wakes rfl
              refine .after (.of_transition offers (by simp))
                (of_emitting rfl ?_)
              intro accepted acceptedPhase sameDecoder
              refine inductionHypothesis _ ?_ acceptedPhase ?_ ?_ rfl
              · rw [sameDecoder]
                exact fewer
              · rw [sameDecoder]
                exact taken.searched
              · rw [sameDecoder]
                exact longNext

section

variable {piece : List UInt8}
variable {reads : List TimedRead}
variable (decoder : state.decoder = .new scenario.settings.maxFrameBytes)
variable (long :
  scenario.settings.maxFrameBytes < (Reference.tail piece).length)

include decoder long

/-- The first chunk comes, unless the session is stopped before. -/
private theorem of_reading
    {due : Milliseconds}
    {limit : Option Milliseconds}
    (phase : state.phase = .reading (some due) limit (.chunk piece) reads)
    (inTime : Scenario.comesInTime (some due) limit = true) :
    Exceeds scenario state := by
  cases wakes : scenario.wake state (some due) with
  | stopped time termination =>
      have stops :
          scenario.wake state
              (if Scenario.comesInTime (some due) limit then some due
                else limit) =
            .stopped time termination := by
        rw [inTime]
        exact wakes
      exact .stopped [] (.refl state) (.readStopped phase stops)
  | never =>
      cases (Scenario.wakeAt_eq_never wakes).1
  | ready time =>
      have receives := Scenario.Transition.received phase inTime wakes
      refine .after (.of_transition receives (by simp))
        (of_delivering rfl ?_ ?_)
      · change (state.decoder.feed piece).Searched
        rw [decoder]
        exact (Decoder.Searched.new _).feed piece
      · change (state.decoder.feed piece).limit <
          (Reference.tail (state.decoder.feed piece).buffer).length
        rw [decoder]
        exact long

/-- The first chunk is waited for, unless the session must stop. -/
private theorem of_streaming
    {wait : Milliseconds}
    (phase : state.phase = .streaming (⟨wait, .chunk piece⟩ :: reads))
    (inTime : ∀ idle ∈ scenario.settings.idleLimit, wait ≤ idle) :
    Exceeds scenario state := by
  cases wakes : scenario.wake state (some state.now) with
  | stopped time termination =>
      exact .stopped [] (.refl state) (.streamStopped phase wakes)
  | never =>
      cases (Scenario.wakeAt_eq_never wakes).1
  | ready time =>
      have begins := Scenario.Transition.reading _ phase wakes rfl
      refine .after (.of_transition begins (by simp))
        (of_reading decoder long rfl ?_)
      cases idle : scenario.settings.idleLimit with
      | none =>
          rfl
      | some limit =>
          exact decide_eq_true
            (Nat.add_le_add_left (inTime limit idle) state.now)

end

end Exceeds

/--
Scenarios that differ only in how their streams are cut, whose streams fit the
limit, and whose consumer stays, have runs that cannot be told apart from
outside: wherever one of them comes, the other comes too, and left alone at a
horizon they end alike, with the same steps at the same times and the same
metrics.  In neither of them too many bytes wait.  The limit is exact: a body
with a segment as long as the limit, or with a longer tail, can be cut so that
a session leaves the stream because too many bytes wait, unless it is stopped
before or waits forever for the consumer.
-/
theorem cutting_is_unseen
    {first second : Scenario}
    (recut : first.Recut second)
    (stays : ∀ time taken, first.isDetached time taken = false) :
    (first.FollowedBy second ∧ second.FollowedBy first) ∧
    (∀ horizon state other,
      StandsAt first horizon state → StandsAt second horizon other →
        let run := state.leaveAt horizon
        let otherRun := other.leaveAt horizon
        run.outcome = otherRun.outcome ∧
          run.history.trace = otherRun.history.trace ∧
          run.history.deliveries = otherRun.history.deliveries ∧
          run.metrics = otherRun.metrics ∧
          ∀ url, run.history.log url = otherRun.history.log url) ∧
    (∀ state,
      Reaches first first.initial state ∨
          Reaches second second.initial state →
        ∀ timed ∈ state.history, ∀ error failures delay,
          timed.event ≠
            .backedOff (.read (.tooLarge error)) failures delay) ∧
    (∀ limit body,
      (∃ segment ∈ Reference.segments body, limit ≤ segment.length) ∨
          limit < (Reference.tail body).length →
        ∃ pieces : List (List UInt8),
          pieces.flatten = body ∧
            ∀ (scenario : Scenario) (origin opening : State) wait ending,
              scenario.settings.maxFrameBytes = limit →
              (∀ idle ∈ scenario.settings.idleLimit, wait ≤ idle) →
              Reaches scenario scenario.initial origin →
              scenario.Transition origin [.opened origin.attempts] opening →
              opening.phase = .streaming (comingAfter wait pieces ++ ending) →
              Exceeds scenario opening) := by
  have otherStays : ∀ time taken, second.isDetached time taken = false := by
    intro time taken
    rw [Scenario.isDetached, ← recut.consumer]
    exact stays time taken
  have followed := recut.followedBy stays
  have following := recut.symm.followedBy otherStays
  refine ⟨⟨followed, following⟩, ?horizon, ?within, ?exact⟩
  case horizon =>
    intro horizon state other stands otherStands
    have alike := StandsAt.leaveAt_alike stands otherStands
      (stands.seenAlike followed following otherStands)
    exact ⟨alike.outcome, History.trace_eq alike.outward,
      History.deliveries_eq alike.outward, alike.metrics,
      History.log_eq alike.outward⟩
  case within =>
    rintro state (reaches | reaches) timed among error failures delay
    · exact reaches.not_tooLarge recut stays among error failures delay
    · exact reaches.not_tooLarge recut.symm otherStays among error failures
        delay
  case exact =>
    intro limit body long
    have exceeds : ¬Reference.Fits limit body := by
      rintro ⟨segments, tail⟩
      rcases long with ⟨segment, among, long⟩ | long
      · exact Nat.not_lt_of_le long (segments segment among)
      · exact Nat.not_lt_of_le tail long
    obtain ⟨piece, rest, rfl, longer⟩ := Reference.exists_long_tail exceeds
    refine ⟨[piece, rest], by simp, ?_⟩
    rintro scenario origin opening wait ending rfl inTime reaches opens phase
    cases opens with
    | opened =>
        have fresh :
            origin.decoder.reset = .new scenario.settings.maxFrameBytes := by
          rw [Decoder.reset, reaches.limit]
        exact .of_streaming fresh longer phase inTime

/-- A session with one stream, given by its chunks, that then fails. -/
def Scenario.streamOf (limit : Nat) (pieces : List (List UInt8)) : Scenario :=
  { Scenario.reconnecting with
    settings := { Scenario.reconnecting.settings with maxFrameBytes := limit }
    connects :=
      [⟨3, .opened (comingAfter 2 pieces ++ [⟨4, .failed "reset"⟩])⟩] }

/-- A comment between two events, and the beginning of a third event. -/
def threeEvents : List UInt8 :=
  Text.Utf8.bytesOf "data: a\n\n: b\n\ndata: c\n\ndata: d\n"

/-- With the least limit that fits, byte by byte is as good as all at once. -/
theorem cutting_of_threeEvents :
    let first := Scenario.streamOf 8 [threeEvents]
    let second := Scenario.streamOf 8 (threeEvents.map ([·]))
    first.Recut second ∧
      (∀ time taken, first.isDetached time taken = false) ∧
      (first.run 20).history.deliveries =
        [⟨"message", "a"⟩, ⟨"message", "c"⟩] ∧
      (first.run 20).history.trace = (second.run 20).history.trace ∧
      (first.run 20).metrics = (second.run 20).metrics := by
  intro first second
  have fits : Reference.Fits 8 [threeEvents].flatten :=
    ⟨by decide +kernel, by decide +kernel⟩
  have recut : first.Recut second :=
    { url := rfl
      settings := rfl
      consumer := rfl
      cancellation := rfl
      jitter := rfl
      connects :=
        .cons ⟨rfl, .opened (by decide +kernel) (.inr (by decide +kernel))
          (by rintro bytes ⟨⟩) fits⟩ .nil
      afterwards := ⟨rfl, .refused _⟩ }
  have stays : ∀ time taken, first.isDetached time taken = false :=
    fun _ _ => rfl
  have stands : StandsAt first 20 (first.stateAt 20) :=
    .of_stateAt (by decide +kernel)
  have otherStands : StandsAt second 20 (second.stateAt 20) :=
    .of_stateAt (by decide +kernel)
  obtain ⟨-, left, -⟩ := cutting_is_unseen recut stays
  obtain ⟨-, trace, -, metrics, -⟩ := left 20 _ _ stands otherStands
  exact ⟨recut, stays, by decide +kernel, trace, metrics⟩

/-- With one byte less, half of a blank line is too much. -/
example :
    let pieces := [threeEvents.take 8, threeEvents.drop 8]
    let last := (Scenario.streamOf 7 pieces).stateAt 5
    last.history.events.getLast? =
      some (.backedOff (.read (.tooLarge ⟨8, 7⟩)) 1 5) := by
  decide +kernel

end EventRelay.Session
