import EventRelay.Config.Validation

namespace EventRelay.Config

/-!
# What valid configurations satisfy

A configuration is valid if no rule is violated.  Each rule is a condition on
a few settings, and validity is all of these conditions together.
-/

/-- What the rules demand of a configuration. -/
structure Accepted (config : RelayConfig) : Prop where
  bindAddress : isAddress config.listener.bindAddress = true
  metricsAddress :
    config.observability.metricsEnabled = true →
      isAddress config.observability.metricsAddress = true
  sseUrl : ∀ url ∈ config.source.sseUrl, isWebUrl url = true
  apiUrl : ∀ url ∈ config.source.apiUrl, isWebUrl url = true
  connectTimeout : config.source.connectTimeoutSecs ≠ 0
  requestTimeout : config.source.requestTimeoutSecs ≠ 0
  channelCapacity : config.relay.channelCapacity ≠ 0
  keepAlive : config.relay.keepAliveSecs ≠ 0
  maxFrameBytes : config.relay.maxFrameBytes ≠ 0
  fixedDelay : config.backoff.strategy = .fixed → config.backoff.delayMs ≠ 0
  growingDelay :
    config.backoff.strategy = .exponential →
      config.backoff.baseDelayMs ≠ 0 ∧
        config.backoff.baseDelayMs ≤ config.backoff.maxDelayMs
  cookieName : isCookieName config.auth.cookieName = true
  sameSite :
    config.auth.cookieSameSite = .none → config.auth.cookieSecure = true

private theorem demand_eq_nil_iff {holds : Bool} {violation : Violation} :
    demand holds violation = [] ↔ holds = true := by
  cases holds <;> simp [demand]

/-- The check of a URL is silent when there is none or it is a web URL. -/
private theorem checkUrl_eq_nil_iff {setting : Setting} {value : Option String} :
    checkUrl setting value = [] ↔ ∀ url ∈ value, isWebUrl url = true := by
  cases value with
  | none =>
      simp [checkUrl]
  | some url =>
      simp [checkUrl, demand_eq_nil_iff]

private theorem checkPositive_eq_nil_iff {setting : Setting} {value : Nat} :
    checkPositive setting value = [] ↔ value ≠ 0 := by
  rw [checkPositive, demand_eq_nil_iff, decide_eq_true_iff]

/--
The check of the backoff asks for positive delays in the right order, as far
as the strategy uses them.
-/
private theorem checkBackoff_eq_nil_iff {backoff : Backoff} :
    checkBackoff backoff = [] ↔
      (backoff.strategy = .fixed → backoff.delayMs ≠ 0) ∧
        (backoff.strategy = .exponential →
          backoff.baseDelayMs ≠ 0 ∧
            backoff.baseDelayMs ≤ backoff.maxDelayMs) := by
  rw [checkBackoff]
  cases backoff.strategy with
  | fixed =>
      simp [checkPositive_eq_nil_iff]
  | exponential =>
      by_cases zero : backoff.baseDelayMs = 0 <;>
        simp [zero, demand_eq_nil_iff]

/-- A configuration is valid if it satisfies every rule. -/
theorem isValid_iff_accepted {config : RelayConfig} :
    isValid config = true ↔ Accepted config := by
  have metrics :
      (!config.observability.metricsEnabled ||
          isAddress config.observability.metricsAddress) = true ↔
        (config.observability.metricsEnabled = true →
          isAddress config.observability.metricsAddress = true) := by
    cases config.observability.metricsEnabled <;> simp
  have sameSite :
      (config.auth.cookieSameSite != .none || config.auth.cookieSecure) =
          true ↔
        (config.auth.cookieSameSite = .none →
          config.auth.cookieSecure = true) := by
    cases config.auth.cookieSameSite <;> simp
  simp only [isValid, violations, List.isEmpty_iff, List.append_eq_nil_iff,
    demand_eq_nil_iff, checkUrl_eq_nil_iff, checkPositive_eq_nil_iff,
    checkBackoff_eq_nil_iff, metrics, sameSite, and_assoc]
  constructor
  · rintro ⟨bindAddress, metricsAddress, sseUrl, apiUrl, connectTimeout,
      requestTimeout, channelCapacity, keepAlive, maxFrameBytes, fixedDelay,
      growingDelay, cookieName, sameSite⟩
    exact ⟨bindAddress, metricsAddress, sseUrl, apiUrl, connectTimeout,
      requestTimeout, channelCapacity, keepAlive, maxFrameBytes, fixedDelay,
      growingDelay, cookieName, sameSite⟩
  · rintro ⟨bindAddress, metricsAddress, sseUrl, apiUrl, connectTimeout,
      requestTimeout, channelCapacity, keepAlive, maxFrameBytes, fixedDelay,
      growingDelay, cookieName, sameSite⟩
    exact ⟨bindAddress, metricsAddress, sseUrl, apiUrl, connectTimeout,
      requestTimeout, channelCapacity, keepAlive, maxFrameBytes, fixedDelay,
      growingDelay, cookieName, sameSite⟩

end EventRelay.Config
