import EventRelay.Frame.Decoder
import EventRelay.Session.History

namespace EventRelay.Session

/-!
# The session machine

A session connects, streams, and waits before it connects again.  It ends
when it is cancelled or its consumer is gone.  One step of the machine lasts
until the next thing happens; what happens at one time is ordered by rank:
cancellation, then departure of the consumer, then all else, and data before
the idle limit.
-/

open Timing (Milliseconds)
open Source (ConnectError ReadError)

/-- Where a session stands. -/
inductive Phase where
  /-- About to make an attempt. -/
  | connecting
  /-- Waiting for the answer to an attempt. -/
  | dialing (due : Option Milliseconds) (answer : ConnectAnswer)
  /-- About to read the open stream. -/
  | streaming (reads : List TimedRead)
  /-- Waiting for the answer to a read. -/
  | reading
      (due limit : Option Milliseconds)
      (answer : ReadAnswer)
      (reads : List TimedRead)
  /-- Delivering the frames that are complete. -/
  | delivering (reads : List TimedRead)
  /-- Waiting for the consumer to take an event. -/
  | emitting
      (due : Option Milliseconds)
      (event : Downstream.Event)
      (reads : List TimedRead)
  /-- Waiting to connect again. -/
  | pausing (due : Milliseconds)
  | ended (termination : Termination)
  deriving Repr, DecidableEq

namespace Phase

/-- Whether a stream is open. -/
def isOpen : Phase → Bool
  | .streaming _ =>
      true
  | .reading _ _ _ _ =>
      true
  | .delivering _ =>
      true
  | .emitting _ _ _ =>
      true
  | _ =>
      false

end Phase

/-- A session at one time. -/
structure State where
  now : Milliseconds
  phase : Phase
  decoder : Decoder
  /-- Failures since the last event that was taken. -/
  failures : Nat
  attempts : Nat
  /-- Events taken. -/
  forwarded : Nat
  /-- What the next attempts lead to. -/
  connects : List TimedConnect
  /-- What happened, newest first. -/
  past : History
  deriving Repr, DecidableEq

/-- The greatest count of failures. -/
def maxFailures : Nat :=
  4294967295

namespace State

/-- What happened, in order. -/
def history (state : State) : History :=
  state.past.reverse

/-- Records an event at the present time. -/
def record (state : State) (event : Event) : State :=
  { state with past := ⟨state.now, event⟩ :: state.past }

/-- Lets time pass. -/
def waitUntil (state : State) (time : Milliseconds) : State :=
  { state with now := max state.now time }

/-- Goes to another phase. -/
def enter (state : State) (phase : Phase) : State :=
  { state with phase }

/-- Counts an attempt to connect. -/
def attempt (state : State) : State :=
  ({ state with attempts := state.attempts + 1 }).record
    (.attempted (state.attempts + 1))

/-- Closes the stream. -/
def close (state : State) : State :=
  state.record .closed

/-- Ends the session. -/
def finish (state : State) (termination : Termination) : State :=
  (state.record (.ended termination state.attempts state.forwarded)).enter
    (.ended termination)

/-- Ends the session, closing the stream if it is open. -/
def stop (state : State) (termination : Termination) : State :=
  if state.phase.isOpen then
    state.close.finish termination
  else
    state.finish termination

end State

/-- How waiting ends. -/
inductive Wake where
  /-- What was waited for is there. -/
  | ready (time : Milliseconds)
  /-- The session must stop. -/
  | stopped (time : Milliseconds) (termination : Termination)
  /-- Nothing will ever happen. -/
  | never
  deriving Repr, DecidableEq

/-- The earlier of two moments; the first if both come at once. -/
def earlier
    (first second : Option (Milliseconds × Termination)) :
    Option (Milliseconds × Termination) :=
  match first, second with
  | none, second =>
      second
  | first, none =>
      first
  | some first, some second =>
      if first.1 ≤ second.1 then
        some first
      else
        some second

namespace Scenario

/-- When the session is cancelled if nothing else happens before. -/
def cancelTime? (scenario : Scenario) (state : State) :
    Option Milliseconds :=
  signalTime? scenario.cancellation.cancelAt
    scenario.cancellation.cancelAfter state.now state.forwarded

/-- When the consumer leaves if nothing else happens before. -/
def detachTime? (scenario : Scenario) (state : State) :
    Option Milliseconds :=
  signalTime? scenario.consumer.detachAt scenario.consumer.detachAfter
    state.now state.forwarded

/-- When and why the session stops if nothing else happens before. -/
def stopTime? (scenario : Scenario) (state : State) :
    Option (Milliseconds × Termination) :=
  earlier
    ((scenario.cancelTime? state).map (·, .cancelled))
    ((scenario.detachTime? state).map (·, .consumerGone))

/-- How waiting for a moment ends, given when and why the session stops. -/
def wakeAt
    (due : Option Milliseconds)
    (stop : Option (Milliseconds × Termination)) : Wake :=
  match due, stop with
  | none, none =>
      .never
  | some due, none =>
      .ready due
  | none, some (time, termination) =>
      .stopped time termination
  | some due, some (time, termination) =>
      if time ≤ due then
        .stopped time termination
      else
        .ready due

/-- How waiting ends where every signal to stop is heard. -/
def wake (scenario : Scenario) (state : State) (due : Option Milliseconds) :
    Wake :=
  wakeAt due (scenario.stopTime? state)

/-- How waiting ends where only cancellation is heard. -/
def wakeForCancel
    (scenario : Scenario)
    (state : State)
    (due : Option Milliseconds) : Wake :=
  wakeAt due ((scenario.cancelTime? state).map (·, .cancelled))

/-! ## Steps -/

/-- The failures counted after one more. -/
def nextFailures (state : State) : Nat :=
  min (state.failures + 1) maxFailures

/-- How long to wait after one more failure. -/
def pause (scenario : Scenario) (state : State) : Milliseconds :=
  scenario.settings.backoff.delay (nextFailures state)
    (scenario.jitter state.attempts)

/-- Begins to wait before the next attempt. -/
def backOff (scenario : Scenario) (state : State) (reason : BackoffReason) :
    State :=
  let failures := nextFailures state
  let delay := scenario.pause state
  (({ state with failures }).record (.backedOff reason failures delay)).enter
    (.pausing (state.now + delay))

/-- Closes the stream and begins to wait before the next attempt. -/
def leave (scenario : Scenario) (state : State) (reason : BackoffReason) :
    State :=
  scenario.backOff state.close reason

/-- Makes an attempt, unless the session must stop. -/
def stepConnecting (scenario : Scenario) (state : State) : State :=
  match scenario.wake state (some state.now) with
  | .stopped _ termination =>
      state.attempt.stop termination
  | _ =>
      let connect := state.connects.headD scenario.afterwards
      (({ state.attempt with connects := state.connects.tail }).record
        .called).enter (.dialing (connect.due state.now) connect.answer)

/-- Deals with the answer to an attempt. -/
def connected (scenario : Scenario) (state : State) (answer : ConnectAnswer) :
    State :=
  match answer with
  | .refused error =>
      scenario.backOff (state.record (.refused error)) (.connect error)
  | .opened reads =>
      (({ state with decoder := state.decoder.reset }).record
        (.opened state.attempts)).enter (.streaming reads)
  | .silent =>
      state

/-- Waits for the answer to an attempt. -/
def stepDialing
    (scenario : Scenario)
    (state : State)
    (due : Option Milliseconds)
    (answer : ConnectAnswer) : Option State :=
  match scenario.wake state due with
  | .stopped time termination =>
      some ((state.waitUntil time).stop termination)
  | .ready time =>
      some (scenario.connected (state.waitUntil time) answer)
  | .never =>
      none

/-- Begins a read, unless the session must stop. -/
def stepStreaming
    (scenario : Scenario)
    (state : State)
    (reads : List TimedRead) : State :=
  match scenario.wake state (some state.now) with
  | .stopped _ termination =>
      state.stop termination
  | _ =>
      let read := reads.headD .ended
      (state.record .reading).enter
        (.reading (read.due state.now)
          (scenario.settings.idleLimit.map (state.now + ·))
          read.answer reads.tail)

/-- Deals with the answer to a read. -/
def answered
    (scenario : Scenario)
    (state : State)
    (answer : ReadAnswer)
    (reads : List TimedRead) : State :=
  match answer with
  | .chunk bytes =>
      (({ state with decoder := state.decoder.feed bytes }).record
        (.received bytes)).enter (.delivering reads)
  | .failed reason =>
      scenario.leave state (.read (.transport reason))
  | .ended =>
      scenario.leave state .endOfStream
  | .silent =>
      state

/-- Whether an answer comes no later than the limit of its read. -/
def comesInTime (due limit : Option Milliseconds) : Bool :=
  match due, limit with
  | _, none =>
      true
  | none, some _ =>
      false
  | some due, some limit =>
      due ≤ limit

/-- Waits for the answer to a read, no longer than the idle limit. -/
def stepReading
    (scenario : Scenario)
    (state : State)
    (due limit : Option Milliseconds)
    (answer : ReadAnswer)
    (reads : List TimedRead) : Option State :=
  let inTime := comesInTime due limit
  match scenario.wake state (if inTime then due else limit) with
  | .stopped time termination =>
      some ((state.waitUntil time).stop termination)
  | .ready time =>
      let state := state.waitUntil time
      if inTime then
        some (scenario.answered state answer reads)
      else
        some (scenario.leave state
          (.read (.idle (scenario.settings.idleLimit.getD 0))))
  | .never =>
      none

/-- Gives the next complete frame to the consumer, or goes on reading. -/
def stepDelivering
    (scenario : Scenario)
    (state : State)
    (reads : List TimedRead) : State :=
  let (next, decoder) := state.decoder.next
  let taken := { state with decoder }
  match next with
  | some frame =>
      match scenario.wakeForCancel state (some state.now) with
      | .stopped _ termination =>
          taken.stop termination
      | _ =>
          let event : Downstream.Event := ⟨Downstream.messageName, frame.data⟩
          (taken.record (.offered event)).enter
            (.emitting
              ((scenario.consumer.delay state.forwarded).map (state.now + ·))
              event reads)
  | none =>
      match decoder.checkCapacity with
      | .error error =>
          scenario.leave taken (.read (.tooLarge error))
      | .ok _ =>
          taken.enter (.streaming reads)

/-- Deals with the consumer's answer. -/
def offered
    (scenario : Scenario)
    (state : State)
    (event : Downstream.Event)
    (reads : List TimedRead) : State :=
  if scenario.consumer.takes state.forwarded then
    (({ state with forwarded := state.forwarded + 1, failures := 0 }).record
      (.accepted event)).enter (.delivering reads)
  else
    (state.record (.turnedAway event)).stop .consumerGone

/-- Waits for the consumer to take an event. -/
def stepEmitting
    (scenario : Scenario)
    (state : State)
    (due : Option Milliseconds)
    (event : Downstream.Event)
    (reads : List TimedRead) : Option State :=
  match scenario.wakeForCancel state due with
  | .stopped time termination =>
      some ((state.waitUntil time).stop termination)
  | .ready time =>
      some (scenario.offered (state.waitUntil time) event reads)
  | .never =>
      none

/-- Waits before the next attempt. -/
def stepPausing
    (scenario : Scenario)
    (state : State)
    (due : Milliseconds) : State :=
  match scenario.wake state (some due) with
  | .stopped time termination =>
      (state.waitUntil time).stop termination
  | _ =>
      (state.waitUntil due).enter .connecting

/-- One step; `none` if the session has ended or nothing will ever happen. -/
def step? (scenario : Scenario) (state : State) : Option State :=
  match state.phase with
  | .connecting =>
      some (scenario.stepConnecting state)
  | .dialing due answer =>
      scenario.stepDialing state due answer
  | .streaming reads =>
      some (scenario.stepStreaming state reads)
  | .reading due limit answer reads =>
      scenario.stepReading state due limit answer reads
  | .delivering reads =>
      some (scenario.stepDelivering state reads)
  | .emitting due event reads =>
      scenario.stepEmitting state due event reads
  | .pausing due =>
      some (scenario.stepPausing state due)
  | .ended _ =>
      none

/-- A session about to make its first attempt. -/
def initial (scenario : Scenario) : State :=
  ({ now := 0
     phase := .connecting
     decoder := .new scenario.settings.maxFrameBytes
     failures := 0
     attempts := 0
     forwarded := 0
     connects := scenario.connects
     past := [] } : State).record .started

end Scenario

end EventRelay.Session
