namespace EventRelay.Observe

/-!
# Metrics

Counters and one gauge.  A series appears once it was touched, and keeps its
place when it returns to zero.
-/

/-- A measured quantity with its labels. -/
inductive Series where
  /-- Sessions running now. -/
  | activeSessions
  /-- Connect attempts by outcome. -/
  | connects (outcome : String)
  /-- Frames delivered. -/
  | forwardedFrames
  /-- Waits before connecting again, by reason. -/
  | backoffs (reason : String)
  /-- Requests by route and status. -/
  | requests (route : String) (status : Nat)
  deriving Repr, DecidableEq

namespace Series

/-- The name of the quantity. -/
def name : Series → String
  | .activeSessions =>
      "relay_sessions_active"
  | .connects _ =>
      "relay_upstream_connects_total"
  | .forwardedFrames =>
      "relay_frames_forwarded_total"
  | .backoffs _ =>
      "relay_backoffs_total"
  | .requests _ _ =>
      "http_requests_total"

/-- The labels of the series. -/
def labels : Series → List (String × String)
  | .activeSessions =>
      []
  | .connects outcome =>
      [("outcome", outcome)]
  | .forwardedFrames =>
      []
  | .backoffs reason =>
      [("reason", reason)]
  | .requests route status =>
      [("route", route), ("status", toString status)]

/-- The name with its labels in braces, if there are any. -/
def text (series : Series) : String :=
  match series.labels with
  | [] =>
      series.name
  | labels =>
      let pairs := labels.map fun (label, value) => label ++ "=" ++ value
      series.name ++ "\x7b" ++ ",".intercalate pairs ++ "\x7d"

end Series

/-- The values of the series touched so far. -/
structure Metrics where
  values : List (Series × Int)
  deriving Repr, DecidableEq

namespace Metrics

/-- No series touched. -/
def empty : Metrics :=
  ⟨[]⟩

/-- The value of a series; untouched series are at zero. -/
def value (metrics : Metrics) (series : Series) : Int :=
  (metrics.values.lookup series).getD 0

/-- Adds to the value of a series in a list. -/
def addTo (series : Series) (amount : Int) :
    List (Series × Int) → List (Series × Int)
  | [] =>
      [(series, amount)]
  | (other, value) :: rest =>
      if other = series then
        (other, value + amount) :: rest
      else
        (other, value) :: addTo series amount rest

/-- Adds to a series. -/
def add (metrics : Metrics) (series : Series) (amount : Int) : Metrics :=
  ⟨addTo series amount metrics.values⟩

/-- Counts one more. -/
def count (metrics : Metrics) (series : Series) : Metrics :=
  metrics.add series 1

/-- Adds every value of other metrics. -/
def addAll (metrics other : Metrics) : Metrics :=
  other.values.foldl
    (fun metrics (series, amount) => metrics.add series amount) metrics

end Metrics

/-- Sessions that were entered; each is running or has been left. -/
structure ActiveSessions where
  running : List Bool
  deriving Repr, DecidableEq

namespace ActiveSessions

/-- No session was entered. -/
def none : ActiveSessions :=
  ⟨[]⟩

/-- Enters a session, which raises the gauge. -/
def enter (sessions : ActiveSessions) (metrics : Metrics) :
    ActiveSessions × Metrics :=
  (⟨sessions.running ++ [true]⟩, metrics.add .activeSessions 1)

/-- Leaves a session; one that is not running stays as it is. -/
def leave (sessions : ActiveSessions) (metrics : Metrics) (index : Nat) :
    ActiveSessions × Metrics :=
  match sessions.running[index]? with
  | some true =>
      (⟨sessions.running.set index false⟩, metrics.add .activeSessions (-1))
  | _ =>
      (sessions, metrics)

end ActiveSessions

end EventRelay.Observe
