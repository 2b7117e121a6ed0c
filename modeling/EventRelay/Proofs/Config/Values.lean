import EventRelay.Proofs.Config.Pinning
import Mathlib.Logic.Function.Basic

namespace EventRelay.Config

/-!
# Values of settings

A configuration is the collection of the values of its settings.  Values are
of six kinds.
-/

/-- A kind of values. -/
inductive Kind where
  | text
  | optionalText
  | count
  | truth
  | strategy
  | sameSite
  deriving Repr, DecidableEq

namespace Kind

/-- The values of a kind. -/
def Value : Kind → Type
  | .text =>
      String
  | .optionalText =>
      Option String
  | .count =>
      Nat
  | .truth =>
      Bool
  | .strategy =>
      Strategy
  | .sameSite =>
      SameSite

end Kind

namespace Setting

/-- The kind of a setting's values. -/
def kind : Setting → Kind
  | .bindAddress | .cookieName | .logLevel | .metricsAddress =>
      .text
  | .sseUrl | .apiUrl | .apiToken | .dashboardSecret =>
      .optionalText
  | .cookieSecure | .metricsEnabled =>
      .truth
  | .strategy =>
      .strategy
  | .cookieSameSite =>
      .sameSite
  | .connectTimeoutSecs | .idleReadTimeoutSecs | .requestTimeoutSecs
  | .channelCapacity | .keepAliveSecs | .maxFrameBytes | .delayMs
  | .baseDelayMs | .maxDelayMs | .cookieMaxAgeSecs =>
      .count

/-- The value that a configuration has for a setting. -/
def get : (setting : Setting) → RelayConfig → setting.kind.Value
  | .bindAddress, config =>
      config.listener.bindAddress
  | .sseUrl, config =>
      config.source.sseUrl
  | .apiUrl, config =>
      config.source.apiUrl
  | .apiToken, config =>
      config.source.apiToken
  | .connectTimeoutSecs, config =>
      config.source.connectTimeoutSecs
  | .idleReadTimeoutSecs, config =>
      config.source.idleReadTimeoutSecs
  | .requestTimeoutSecs, config =>
      config.source.requestTimeoutSecs
  | .channelCapacity, config =>
      config.relay.channelCapacity
  | .keepAliveSecs, config =>
      config.relay.keepAliveSecs
  | .maxFrameBytes, config =>
      config.relay.maxFrameBytes
  | .strategy, config =>
      config.backoff.strategy
  | .delayMs, config =>
      config.backoff.delayMs
  | .baseDelayMs, config =>
      config.backoff.baseDelayMs
  | .maxDelayMs, config =>
      config.backoff.maxDelayMs
  | .dashboardSecret, config =>
      config.auth.dashboardSecret
  | .cookieName, config =>
      config.auth.cookieName
  | .cookieSecure, config =>
      config.auth.cookieSecure
  | .cookieSameSite, config =>
      config.auth.cookieSameSite
  | .cookieMaxAgeSecs, config =>
      config.auth.cookieMaxAgeSecs
  | .logLevel, config =>
      config.observability.logLevel
  | .metricsEnabled, config =>
      config.observability.metricsEnabled
  | .metricsAddress, config =>
      config.observability.metricsAddress

end Setting

/-- The configuration of given values. -/
def RelayConfig.ofValues (value : (setting : Setting) → setting.kind.Value) :
    RelayConfig where
  listener := ⟨value .bindAddress⟩
  source :=
    ⟨value .sseUrl, value .apiUrl, value .apiToken, value .connectTimeoutSecs,
      value .idleReadTimeoutSecs, value .requestTimeoutSecs⟩
  relay :=
    ⟨value .channelCapacity, value .keepAliveSecs, value .maxFrameBytes⟩
  backoff :=
    ⟨value .strategy, value .delayMs, value .baseDelayMs, value .maxDelayMs⟩
  auth :=
    ⟨value .dashboardSecret, value .cookieName, value .cookieSecure,
      value .cookieSameSite, value .cookieMaxAgeSecs⟩
  observability :=
    ⟨value .logLevel, value .metricsEnabled, value .metricsAddress⟩

namespace Setting

@[simp] theorem get_ofValues
    (value : (setting : Setting) → setting.kind.Value)
    (setting : Setting) :
    setting.get (.ofValues value) = value setting := by
  cases setting <;> rfl

private theorem ofValues_get (config : RelayConfig) :
    RelayConfig.ofValues (fun setting => setting.get config) = config :=
  rfl

/-- Configurations with the same values are the same. -/
theorem eq_of_get
    {first second : RelayConfig}
    (same : ∀ setting : Setting, setting.get first = setting.get second) :
    first = second := by
  rw [← ofValues_get first, ← ofValues_get second]
  exact congrArg RelayConfig.ofValues (funext same)

/-- Carrying a setting over is taking its value from the giver. -/
private theorem carry_eq (setting : Setting) (giver taker : RelayConfig) :
    setting.carry giver taker =
      .ofValues
        (Function.update (·.get taker) setting (setting.get giver)) := by
  cases setting <;> rfl

/-- Configurations agree on a setting if they have the same value for it. -/
theorem agrees_iff_get_eq
    {setting : Setting}
    {first second : RelayConfig} :
    setting.agrees first second = true ↔
      setting.get first = setting.get second := by
  rw [agrees_iff, carry_eq]
  constructor
  · intro carried
    rw [← carried, get_ofValues, Function.update_self]
  · intro same
    rw [same, Function.update_eq_self, ofValues_get]

end Setting

end EventRelay.Config
