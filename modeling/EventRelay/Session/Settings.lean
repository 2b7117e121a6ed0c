import EventRelay.Config.Basic
import EventRelay.Timing.IdleLimit

namespace EventRelay.Session

/-!
# Session settings

What a session keeps of the configuration that was current when its consumer
came.
-/

/-- The settings of one session. -/
structure Settings where
  /-- The event stream; without it, nothing is attempted. -/
  url : Option String
  backoff : Timing.BackoffPolicy
  /-- The longest silence of an open stream. -/
  idleLimit : Option Timing.Milliseconds
  /-- The longest unterminated event. -/
  maxFrameBytes : Nat
  deriving Repr, DecidableEq

namespace Settings

/-- The settings of a configuration. -/
def ofConfig (config : Config.RelayConfig) : Settings where
  url := config.source.sseUrl
  backoff := config.backoff.policy
  idleLimit := Timing.limitOfSeconds config.source.idleReadTimeoutSecs
  maxFrameBytes := config.relay.maxFrameBytes

end Settings

end EventRelay.Session
