import EventRelay.Downstream.Event
import EventRelay.Observe.Log
import EventRelay.Observe.Metrics
import EventRelay.Session.Scenario

namespace EventRelay.Session

/-!
# Histories

What a session does is recorded as a list of timed events.  Its trace, its
metrics and its log are views of that list.
-/

open Timing (Milliseconds durationText)
open Source (ConnectError ReadError)

/-- Why a session ended. -/
inductive Termination where
  /-- There is no usable URL. -/
  | unconfigured
  | consumerGone
  | cancelled
  deriving Repr, DecidableEq

namespace Termination

/-- The name of a reason. -/
def name : Termination → String
  | .unconfigured =>
      "Unconfigured"
  | .consumerGone =>
      "DownstreamGone"
  | .cancelled =>
      "Cancelled"

end Termination

/-- Why a session waits before it connects again. -/
inductive BackoffReason where
  | connect (error : ConnectError)
  | read (error : ReadError)
  | endOfStream
  deriving Repr, DecidableEq

namespace BackoffReason

/-- The label of a reason. -/
def label : BackoffReason → String
  | .connect error =>
      error.label
  | .read error =>
      error.label
  | .endOfStream =>
      "end_of_stream"

end BackoffReason

/-- Something a session does or meets. -/
inductive Event where
  /-- The session starts. -/
  | started
  /-- An attempt to connect is counted. -/
  | attempted (number : Nat)
  /-- The source is asked for a stream. -/
  | called
  | opened (attempt : Nat)
  | refused (error : ConnectError)
  /-- A read of the open stream begins. -/
  | reading
  /-- Bytes were read from the open stream. -/
  | received (bytes : List UInt8)
  /-- An event is given to the consumer. -/
  | offered (event : Downstream.Event)
  /-- The consumer took the event. -/
  | accepted (event : Downstream.Event)
  /-- The consumer turned out to be gone. -/
  | turnedAway (event : Downstream.Event)
  | closed
  | backedOff (reason : BackoffReason) (failures : Nat) (delay : Milliseconds)
  /-- The session ends; the last number counts the events taken. -/
  | ended (termination : Termination) (attempts forwarded : Nat)
  deriving Repr, DecidableEq

/-- An event with its time. -/
structure Timed where
  time : Milliseconds
  event : Event
  deriving Repr, DecidableEq

/-- Events in the order in which they happened. -/
abbrev History := List Timed

/-- A step that is visible from outside. -/
inductive Visible where
  | connect
  | opened
  | accepted (payload : String)
  | turnedAway
  | closed
  deriving Repr, DecidableEq

namespace Event

/-- The visible side of an event. -/
def visible? : Event → Option Visible
  | .called =>
      some .connect
  | .opened _ =>
      some .opened
  | .accepted event =>
      some (.accepted event.payload)
  | .turnedAway _ =>
      some .turnedAway
  | .closed =>
      some .closed
  | _ =>
      none

/-- The event that the consumer took. -/
def delivery? : Event → Option Downstream.Event
  | .accepted event =>
      some event
  | _ =>
      none

/-- What an event adds to which series. -/
def measure? : Event → Option (Observe.Series × Int)
  | .started =>
      some (.activeSessions, 1)
  | .opened _ =>
      some (.connects "ok", 1)
  | .refused error =>
      some (.connects error.label, 1)
  | .accepted _ =>
      some (.forwardedFrames, 1)
  | .backedOff reason _ _ =>
      some (.backoffs reason.label, 1)
  | .ended _ _ _ =>
      some (.activeSessions, -1)
  | _ =>
      none

/-- The log entry of a wait. -/
def backoffEntry
    (reason : BackoffReason)
    (failures : Nat)
    (delay : Milliseconds) : Observe.Entry :=
  let retry :=
    [("failures", toString failures), ("delay", durationText delay)]
  match reason with
  | .endOfStream =>
      ⟨.info, "Upstream stream ended, reconnecting",
        [("delay", durationText delay)]⟩
  | .connect error =>
      ⟨.warn, "Upstream connect failed", ("error", error.message) :: retry⟩
  | .read error =>
      ⟨.warn, "Upstream stream failed", ("error", error.message) :: retry⟩

/-- The log entry of an end. -/
def endEntry (termination : Termination) (attempts forwarded : Nat) :
    Observe.Entry :=
  ⟨.info, "Relay session ended",
    [("termination", termination.name),
      ("connect_attempts", toString attempts),
      ("frames_forwarded", toString forwarded)]⟩

/-- The log entry of an event, if it has one. -/
def entry? (url : Url) : Event → Option Observe.Entry
  | .attempted number =>
      some ⟨.debug, "Connecting to upstream",
        [("attempt", toString number), ("url", url.toString)]⟩
  | .opened attempt =>
      some ⟨.info, "Upstream stream open", [("attempt", toString attempt)]⟩
  | .backedOff reason failures delay =>
      some (backoffEntry reason failures delay)
  | .ended termination attempts forwarded =>
      some (endEntry termination attempts forwarded)
  | _ =>
      none

end Event

namespace History

/-- The events without their times. -/
def events (history : History) : List Event :=
  history.map Timed.event

/-- The visible steps with their times. -/
def trace (history : History) : List (Milliseconds × Visible) :=
  history.filterMap fun timed =>
    timed.event.visible?.map (timed.time, ·)

/-- The events that the consumer took, in order. -/
def deliveries (history : History) : List Downstream.Event :=
  history.filterMap (·.event.delivery?)

/-- Adds what a history measures to metrics. -/
def measureOnto (metrics : Observe.Metrics) (history : History) :
    Observe.Metrics :=
  (history.filterMap (·.event.measure?)).foldl
    (fun metrics (series, amount) => metrics.add series amount) metrics

/-- What a history measures. -/
def metrics (history : History) : Observe.Metrics :=
  measureOnto .empty history

/-- The log entries of a history. -/
def log (url : Url) (history : History) : List Observe.Entry :=
  history.filterMap (·.event.entry? url)

end History

end EventRelay.Session
