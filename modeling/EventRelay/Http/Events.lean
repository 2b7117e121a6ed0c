import EventRelay.Http.Client
import EventRelay.Session.Run

namespace EventRelay.Http

/-!
# Subscriptions

A client that asks for events gets a session of its own.  Each attempt of the
session to connect is a request for a stream, and what comes back decides
what the attempt leads to.
-/

open Session (ConnectAnswer Scenario TimedRead Unconfigured)
open Timing (Milliseconds)

/-- What comes back for a request for a stream. -/
inductive Opening where
  /-- No connection was made in time. -/
  | late
  | unanswered
  /-- An answer, and what can be read of its body. -/
  | answered (status : Status) (reads : List TimedRead)
  deriving Repr, DecidableEq

namespace Opening

/-- What an attempt to connect to a URL leads to. -/
def connectAnswer (url : Url) : Opening → ConnectAnswer
  | .late =>
      .refused .timeout
  | .unanswered =>
      .refused (.transport (SendError.unanswered url).message)
  | .answered status reads =>
      if status.isSuccess then
        .opened reads
      else
        .refused (.status status)

end Opening

/-- What answers requests for streams. -/
structure StreamNetwork where
  opening : Outgoing → Opening

namespace StreamNetwork

/-- A network in which no server can be reached. -/
def unreachable : StreamNetwork :=
  ⟨fun _ => .unanswered⟩

/-- What an attempt to connect to a URL with a token leads to. -/
def connect (network : StreamNetwork) (url : Url) (token : Option String) :
    ConnectAnswer :=
  match Outgoing.prepare url token with
  | .error error =>
      .refused (.transport error.message)
  | .ok request =>
      (network.opening request).connectAnswer request.url

end StreamNetwork

/-- The events that a client subscribed to. -/
structure Subscription where
  settings : Session.Settings
  /-- What the session identifies itself with. -/
  token : Option String
  /-- How often a quiet stream shows that it is alive. -/
  keepAliveSecs : Nat
  deriving Repr, DecidableEq

/-- When a subscription comes to its end. -/
inductive Departure where
  /-- The client leaves. -/
  | leaves (time : Milliseconds)
  /-- The server shuts down. -/
  | shutdown (time : Milliseconds)
  deriving Repr, DecidableEq

namespace Departure

/-- When the client leaves. -/
def detachAt : Departure → Option Milliseconds
  | .leaves time =>
      some time
  | .shutdown _ =>
      none

/-- When the session is cancelled. -/
def cancelAt : Departure → Option Milliseconds
  | .leaves _ =>
      none
  | .shutdown time =>
      some time

/-- When the subscription ends. -/
def time : Departure → Milliseconds
  | .leaves moment =>
      moment
  | .shutdown moment =>
      moment

end Departure

/-- What a subscription leaves behind. -/
structure Aftermath where
  metrics : Observe.Metrics
  log : List Observe.Entry
  deriving Repr, DecidableEq

namespace Subscription

/-- The subscription of a client that comes now. -/
def ofConfig (config : Config.RelayConfig) : Subscription where
  settings := .ofConfig config
  token := config.source.apiToken
  keepAliveSecs := config.relay.keepAliveSecs

/-- The session of a subscription with a consumer that takes everything. -/
def scenario
    (subscription : Subscription)
    (network : StreamNetwork)
    (url : Url)
    (departure : Departure) : Scenario where
  url := url
  settings := subscription.settings
  connects := []
  afterwards := ⟨0, network.connect url subscription.token⟩
  consumer := { Session.Consumer.eager with detachAt := departure.detachAt }
  cancellation := ⟨departure.cancelAt, none⟩
  jitter := fun _ => 0

/-- What a subscription leaves behind that comes to its end. -/
def aftermath
    (subscription : Subscription)
    (network : StreamNetwork)
    (departure : Departure) : Aftermath :=
  let run :=
    subscription.settings.launch
      (subscription.scenario network · departure) departure.time
  match subscription.settings.usableUrl with
  | .error reason =>
      ⟨run.metrics, reason.log⟩
  | .ok url =>
      ⟨run.metrics, run.history.log url⟩

/-- Whether a session of the subscription does anything. -/
def isUsable (subscription : Subscription) : Bool :=
  match subscription.settings.usableUrl with
  | .error _ =>
      false
  | .ok _ =>
      true

end Subscription

end EventRelay.Http
