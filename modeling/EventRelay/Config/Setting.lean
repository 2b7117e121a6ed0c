import EventRelay.Config.Basic

namespace EventRelay.Config

/-!
# Single settings

Each setting has a dotted name.  A setting can be compared between two
configurations and carried from one to the other.
-/

/-- A setting of the configuration. -/
inductive Setting where
  | bindAddress
  | sseUrl
  | apiUrl
  | apiToken
  | connectTimeoutSecs
  | idleReadTimeoutSecs
  | requestTimeoutSecs
  | channelCapacity
  | keepAliveSecs
  | maxFrameBytes
  | strategy
  | delayMs
  | baseDelayMs
  | maxDelayMs
  | dashboardSecret
  | cookieName
  | cookieSecure
  | cookieSameSite
  | cookieMaxAgeSecs
  | logLevel
  | metricsEnabled
  | metricsAddress
  deriving Repr, DecidableEq

namespace Setting

/-- The dotted name. -/
def name : Setting → String
  | .bindAddress =>
      "listener.bind_address"
  | .sseUrl =>
      "upstream.sse_url"
  | .apiUrl =>
      "upstream.api_url"
  | .apiToken =>
      "upstream.api_token"
  | .connectTimeoutSecs =>
      "upstream.connect_timeout_secs"
  | .idleReadTimeoutSecs =>
      "upstream.idle_read_timeout_secs"
  | .requestTimeoutSecs =>
      "upstream.request_timeout_secs"
  | .channelCapacity =>
      "relay.channel_capacity"
  | .keepAliveSecs =>
      "relay.keep_alive_secs"
  | .maxFrameBytes =>
      "relay.max_frame_bytes"
  | .strategy =>
      "backoff.strategy"
  | .delayMs =>
      "backoff.delay_ms"
  | .baseDelayMs =>
      "backoff.base_delay_ms"
  | .maxDelayMs =>
      "backoff.max_delay_ms"
  | .dashboardSecret =>
      "auth.dashboard_secret"
  | .cookieName =>
      "auth.cookie_name"
  | .cookieSecure =>
      "auth.cookie_secure"
  | .cookieSameSite =>
      "auth.cookie_same_site"
  | .cookieMaxAgeSecs =>
      "auth.cookie_max_age_secs"
  | .logLevel =>
      "observability.log_level"
  | .metricsEnabled =>
      "observability.metrics_enabled"
  | .metricsAddress =>
      "observability.metrics_address"

/-- Gives a configuration the value that the setting has in another. -/
def carry (setting : Setting) (giver taker : RelayConfig) : RelayConfig :=
  match setting with
  | .bindAddress =>
      { taker with listener.bindAddress := giver.listener.bindAddress }
  | .sseUrl =>
      { taker with source.sseUrl := giver.source.sseUrl }
  | .apiUrl =>
      { taker with source.apiUrl := giver.source.apiUrl }
  | .apiToken =>
      { taker with source.apiToken := giver.source.apiToken }
  | .connectTimeoutSecs =>
      { taker with source.connectTimeoutSecs := giver.source.connectTimeoutSecs }
  | .idleReadTimeoutSecs =>
      { taker with source.idleReadTimeoutSecs := giver.source.idleReadTimeoutSecs }
  | .requestTimeoutSecs =>
      { taker with source.requestTimeoutSecs := giver.source.requestTimeoutSecs }
  | .channelCapacity =>
      { taker with relay.channelCapacity := giver.relay.channelCapacity }
  | .keepAliveSecs =>
      { taker with relay.keepAliveSecs := giver.relay.keepAliveSecs }
  | .maxFrameBytes =>
      { taker with relay.maxFrameBytes := giver.relay.maxFrameBytes }
  | .strategy =>
      { taker with backoff.strategy := giver.backoff.strategy }
  | .delayMs =>
      { taker with backoff.delayMs := giver.backoff.delayMs }
  | .baseDelayMs =>
      { taker with backoff.baseDelayMs := giver.backoff.baseDelayMs }
  | .maxDelayMs =>
      { taker with backoff.maxDelayMs := giver.backoff.maxDelayMs }
  | .dashboardSecret =>
      { taker with auth.dashboardSecret := giver.auth.dashboardSecret }
  | .cookieName =>
      { taker with auth.cookieName := giver.auth.cookieName }
  | .cookieSecure =>
      { taker with auth.cookieSecure := giver.auth.cookieSecure }
  | .cookieSameSite =>
      { taker with auth.cookieSameSite := giver.auth.cookieSameSite }
  | .cookieMaxAgeSecs =>
      { taker with auth.cookieMaxAgeSecs := giver.auth.cookieMaxAgeSecs }
  | .logLevel =>
      { taker with observability.logLevel := giver.observability.logLevel }
  | .metricsEnabled =>
      { taker with observability.metricsEnabled := giver.observability.metricsEnabled }
  | .metricsAddress =>
      { taker with observability.metricsAddress := giver.observability.metricsAddress }

/--
Whether a setting has the same value in two configurations: carrying it over
changes nothing.
-/
def agrees (setting : Setting) (first second : RelayConfig) : Bool :=
  setting.carry first second == second

end Setting

end EventRelay.Config
