import EventRelay.Config.Setting
import EventRelay.Net.Address
import EventRelay.Text.Plain
import EventRelay.Url.Parse

namespace EventRelay.Config

/-!
# Validation

All rules are checked, so that every violation is reported at once.
-/

/-- A violated rule. -/
inductive Violation where
  | invalidUrl (setting : Setting) (value : String)
  | invalidAddress (setting : Setting) (value : String)
  | zero (setting : Setting)
  | backoffRange (base cap : Nat)
  | cookieName (name : String)
  | insecureSameSiteNone
  deriving Repr, DecidableEq

namespace Violation

/-- The kind of a violation. -/
def kind : Violation → String
  | .invalidUrl _ _ =>
      "InvalidUrl"
  | .invalidAddress _ _ =>
      "InvalidAddress"
  | .zero _ =>
      "Zero"
  | .backoffRange _ _ =>
      "BackoffRange"
  | .cookieName _ =>
      "CookieName"
  | .insecureSameSiteNone =>
      "InsecureSameSiteNone"

/-- The text about a value of a named field that is no URL. -/
def invalidUrlText (field value : String) : String :=
  s!"{field}: invalid URL '{value}'"

/-- The text about delays in the wrong order. -/
def backoffRangeText (base cap : Nat) : String :=
  s!"backoff: base_delay_ms ({base}) exceeds max_delay_ms ({cap})"

/-- The text of a violation. -/
def message : Violation → String
  | .invalidUrl setting value =>
      invalidUrlText setting.name value
  | .invalidAddress setting value =>
      s!"{setting.name}: invalid socket address '{value}'"
  | .zero setting =>
      s!"{setting.name}: must be greater than zero"
  | .backoffRange base cap =>
      backoffRangeText base cap
  | .cookieName name =>
      s!"auth: cookie_name '{name}' is not a valid cookie name"
  | .insecureSameSiteNone =>
      "auth: cookie_same_site = \"none\" requires cookie_secure"

/-- The settings that a violation names. -/
def named : Violation → List Setting
  | .invalidUrl setting _ =>
      [setting]
  | .invalidAddress setting _ =>
      [setting]
  | .zero setting =>
      [setting]
  | .backoffRange _ _ =>
      [.baseDelayMs, .maxDelayMs]
  | .cookieName _ =>
      [.cookieName]
  | .insecureSameSiteNone =>
      [.cookieSameSite, .cookieSecure]

end Violation

/-- Whether a text is a socket address. -/
def isAddress (text : String) : Bool :=
  (Net.SocketAddress.ofText? text.toList).isSome

/-- Whether a text is the URL of a web page. -/
def isWebUrl (text : String) : Bool :=
  match Url.ofString text with
  | .ok url =>
      url.isWeb
  | .error _ =>
      false

/-- Whether a text is the name of a cookie. -/
def isCookieName (name : String) : Bool :=
  Text.isPlainName name.toList

/-- A violation, unless a rule holds. -/
def demand (holds : Bool) (violation : Violation) : List Violation :=
  if holds then
    []
  else
    [violation]

/-- Checks an optional URL. -/
def checkUrl (setting : Setting) (value : Option String) : List Violation :=
  match value with
  | none =>
      []
  | some value =>
      demand (isWebUrl value) (.invalidUrl setting value)

/-- Checks a number that must not be zero. -/
def checkPositive (setting : Setting) (value : Nat) : List Violation :=
  demand (value ≠ 0) (.zero setting)

/-- Checks the delays that the strategy uses. -/
def checkBackoff (backoff : Backoff) : List Violation :=
  match backoff.strategy with
  | .fixed =>
      checkPositive .delayMs backoff.delayMs
  | .exponential =>
      if backoff.baseDelayMs = 0 then
        [.zero .baseDelayMs]
      else
        demand (backoff.baseDelayMs ≤ backoff.maxDelayMs)
          (.backoffRange backoff.baseDelayMs backoff.maxDelayMs)

/-- All violations of a configuration, in order. -/
def violations (config : RelayConfig) : List Violation :=
  demand (isAddress config.listener.bindAddress)
      (.invalidAddress .bindAddress config.listener.bindAddress) ++
    demand
      (!config.observability.metricsEnabled ||
        isAddress config.observability.metricsAddress)
      (.invalidAddress .metricsAddress config.observability.metricsAddress) ++
    checkUrl .sseUrl config.source.sseUrl ++
    checkUrl .apiUrl config.source.apiUrl ++
    checkPositive .connectTimeoutSecs config.source.connectTimeoutSecs ++
    checkPositive .requestTimeoutSecs config.source.requestTimeoutSecs ++
    checkPositive .channelCapacity config.relay.channelCapacity ++
    checkPositive .keepAliveSecs config.relay.keepAliveSecs ++
    checkPositive .maxFrameBytes config.relay.maxFrameBytes ++
    checkBackoff config.backoff ++
    demand (isCookieName config.auth.cookieName)
      (.cookieName config.auth.cookieName) ++
    demand
      (config.auth.cookieSameSite != .none || config.auth.cookieSecure)
      .insecureSameSiteNone

/-- Whether a configuration is accepted. -/
def isValid (config : RelayConfig) : Bool :=
  (violations config).isEmpty

end EventRelay.Config
