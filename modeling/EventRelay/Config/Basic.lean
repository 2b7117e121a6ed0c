import EventRelay.Json.Value
import EventRelay.Timing.Backoff

namespace EventRelay.Config

/-!
# Configuration

The settings of a relay in six sections.  Every setting has a default.
-/

/-- Where the relay listens. -/
structure Listener where
  bindAddress : String
  deriving Repr, DecidableEq

/-- Where events and backend data come from. -/
structure Source where
  /-- The event stream; without it, sessions end at once. -/
  sseUrl : Option String
  /-- The base of the backend's addresses. -/
  apiUrl : Option String
  /-- What the relay identifies itself with. -/
  apiToken : Option String
  connectTimeoutSecs : Nat
  /-- The longest silence of an open stream; zero for any. -/
  idleReadTimeoutSecs : Nat
  requestTimeoutSecs : Nat
  deriving Repr, DecidableEq

/-- How sessions deliver events. -/
structure Relay where
  channelCapacity : Nat
  keepAliveSecs : Nat
  maxFrameBytes : Nat
  deriving Repr, DecidableEq

/-- Which delays are used between connects. -/
inductive Strategy where
  | fixed
  | exponential
  deriving Repr, DecidableEq

/-- Delays between connects, in milliseconds. -/
structure Backoff where
  strategy : Strategy
  delayMs : Nat
  baseDelayMs : Nat
  maxDelayMs : Nat
  deriving Repr, DecidableEq

/-- Which requests of other sites carry a cookie. -/
inductive SameSite where
  | strict
  | lax
  | none
  deriving Repr, DecidableEq

/-- The login and its cookie. -/
structure Auth where
  /-- What users log in with; without it, everything is open. -/
  dashboardSecret : Option String
  cookieName : String
  cookieSecure : Bool
  cookieSameSite : SameSite
  cookieMaxAgeSecs : Nat
  deriving Repr, DecidableEq

/-- What is logged and measured. -/
structure Observability where
  logLevel : String
  metricsEnabled : Bool
  metricsAddress : String
  deriving Repr, DecidableEq

/-- The configuration of a relay. -/
structure RelayConfig where
  listener : Listener
  source : Source
  relay : Relay
  backoff : Backoff
  auth : Auth
  observability : Observability
  deriving Repr, DecidableEq

/-- Every interface, on one well-known number. -/
def Listener.standard : Listener :=
  ⟨"0.0.0.0:3000"⟩

/-- No addresses; five seconds to connect, ten to answer, a minute of silence. -/
def Source.standard : Source :=
  ⟨none, none, none, 5, 60, 10⟩

/-- Sixty-four events, a sign of life every fifteen seconds, one mebibyte. -/
def Relay.standard : Relay :=
  ⟨64, 15, 1048576⟩

/-- Five seconds after every failure. -/
def Backoff.standard : Backoff :=
  ⟨.fixed, 5000, 500, 30000⟩

/-- No login; a cookie for a week, for this site only. -/
def Auth.standard : Auth :=
  ⟨none, "relay_session", false, .strict, 604800⟩

/-- Informative log entries, and no metrics. -/
def Observability.standard : Observability :=
  ⟨"info", false, "0.0.0.0:9090"⟩

/-- The configuration in which nothing was set. -/
def RelayConfig.standard : RelayConfig :=
  ⟨.standard, .standard, .standard, .standard, .standard, .standard⟩

namespace Strategy

/-- The written name. -/
def name : Strategy → String
  | .fixed =>
      "fixed"
  | .exponential =>
      "exponential"

/-- The strategy of a name. -/
def ofName? (name : String) : Option Strategy :=
  [fixed, exponential].find? (·.name == name)

end Strategy

namespace SameSite

/-- The written name. -/
def name : SameSite → String
  | .strict =>
      "strict"
  | .lax =>
      "lax"
  | .none =>
      "none"

/-- The policy of a name. -/
def ofName? (name : String) : Option SameSite :=
  [strict, lax, .none].find? (·.name == name)

/-- The value of the cookie attribute. -/
def attributeText : SameSite → String
  | .strict =>
      "Strict"
  | .lax =>
      "Lax"
  | .none =>
      "None"

end SameSite

namespace Backoff

/-- The delays between connects. -/
def policy (backoff : Backoff) : Timing.BackoffPolicy :=
  match backoff.strategy with
  | .fixed =>
      .fixed backoff.delayMs
  | .exponential =>
      .exponential backoff.baseDelayMs backoff.maxDelayMs

end Backoff

open Json (Value)

def Listener.toValue (listener : Listener) : Value :=
  .object [("bind_address", .text listener.bindAddress)]

def Source.toValue (source : Source) : Value :=
  .object
    [("sse_url", .ofOption source.sseUrl),
      ("api_url", .ofOption source.apiUrl),
      ("api_token", .ofOption source.apiToken),
      ("connect_timeout_secs", .ofInt source.connectTimeoutSecs),
      ("idle_read_timeout_secs", .ofInt source.idleReadTimeoutSecs),
      ("request_timeout_secs", .ofInt source.requestTimeoutSecs)]

def Relay.toValue (relay : Relay) : Value :=
  .object
    [("channel_capacity", .ofInt relay.channelCapacity),
      ("keep_alive_secs", .ofInt relay.keepAliveSecs),
      ("max_frame_bytes", .ofInt relay.maxFrameBytes)]

def Backoff.toValue (backoff : Backoff) : Value :=
  .object
    [("strategy", .text backoff.strategy.name),
      ("delay_ms", .ofInt backoff.delayMs),
      ("base_delay_ms", .ofInt backoff.baseDelayMs),
      ("max_delay_ms", .ofInt backoff.maxDelayMs)]

def Auth.toValue (auth : Auth) : Value :=
  .object
    [("dashboard_secret", .ofOption auth.dashboardSecret),
      ("cookie_name", .text auth.cookieName),
      ("cookie_secure", .boolean auth.cookieSecure),
      ("cookie_same_site", .text auth.cookieSameSite.name),
      ("cookie_max_age_secs", .ofInt auth.cookieMaxAgeSecs)]

def Observability.toValue (observability : Observability) : Value :=
  .object
    [("log_level", .text observability.logLevel),
      ("metrics_enabled", .boolean observability.metricsEnabled),
      ("metrics_address", .text observability.metricsAddress)]

/-- The configuration with all its settings. -/
def RelayConfig.toValue (config : RelayConfig) : Value :=
  .object
    [("listener", config.listener.toValue),
      ("upstream", config.source.toValue),
      ("relay", config.relay.toValue),
      ("backoff", config.backoff.toValue),
      ("auth", config.auth.toValue),
      ("observability", config.observability.toValue)]

end EventRelay.Config
