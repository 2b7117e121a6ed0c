import EventRelay.Config.Reload
import Mathlib.Data.List.Basic

namespace EventRelay.Config

/-!
# Pinned settings

Carrying a setting over is setting it: what was carried last counts, and
carrying the own value changes nothing.  Hence agreement on a setting is an
equivalence, and a configuration is determined by all its settings.  Pinning
takes the startup settings from one configuration and all others from another
one; no rule of validation relates a startup setting to any other setting, so
that a configuration pinned to a valid one is as valid as it was before.
-/

namespace Setting

@[simp] theorem carry_self (setting : Setting) (config : RelayConfig) :
    setting.carry config config = config := by
  cases setting <;> rfl

/-- A setting that is carried on is that of the first giver. -/
@[simp] theorem carry_carry
    (setting : Setting)
    (giver middle taker : RelayConfig) :
    setting.carry (setting.carry giver middle) taker =
      setting.carry giver taker := by
  cases setting <;> rfl

theorem agrees_iff
    {setting : Setting}
    {first second : RelayConfig} :
    setting.agrees first second = true ↔
      setting.carry first second = second :=
  beq_iff_eq

/-- Configurations agree on a setting if both give the same value of it. -/
private theorem agrees_iff_carry_eq
    {setting : Setting}
    {first second : RelayConfig} :
    setting.agrees first second = true ↔
      ∀ taker, setting.carry first taker = setting.carry second taker := by
  rw [agrees_iff]
  constructor
  · intro agreed taker
    rw [← agreed, carry_carry]
  · intro same
    rw [same, carry_self]

/-- Where two configurations agree, a third agrees with both or with neither. -/
theorem agrees_congr
    {setting : Setting}
    {first second : RelayConfig}
    (agreed : setting.agrees first second = true)
    (other : RelayConfig) :
    setting.agrees first other = setting.agrees second other := by
  rw [agrees, agrees, agrees_iff_carry_eq.mp agreed other]

/-- Every setting. -/
def all : List Setting :=
  [.bindAddress, .sseUrl, .apiUrl, .apiToken, .connectTimeoutSecs,
    .idleReadTimeoutSecs, .requestTimeoutSecs, .channelCapacity,
    .keepAliveSecs, .maxFrameBytes, .strategy, .delayMs, .baseDelayMs,
    .maxDelayMs, .dashboardSecret, .cookieName, .cookieSecure,
    .cookieSameSite, .cookieMaxAgeSecs, .logLevel, .metricsEnabled,
    .metricsAddress]

/-- With every setting the whole configuration is carried over. -/
private theorem foldl_carry_all (giver taker : RelayConfig) :
    all.foldl (fun config setting => setting.carry giver config) taker =
      giver := by
  simp only [all, List.foldl_cons, List.foldl_nil, carry]

/-- Configurations that agree on every setting are the same. -/
theorem eq_of_agrees
    {first second : RelayConfig}
    (agreed : ∀ setting : Setting, setting.agrees first second = true) :
    first = second := by
  have carried (setting : Setting) : setting.carry first second = second :=
    agrees_iff.mp (agreed setting)
  calc
    first =
        all.foldl (fun config setting => setting.carry first config) second :=
      (foldl_carry_all first second).symm
    _ = second := List.foldl_fixed' carried all

end Setting

/-- What pinning takes from where. -/
theorem pinTo_eq (running next : RelayConfig) :
    pinTo running next =
      { next with
        listener := running.listener
        source.connectTimeoutSecs := running.source.connectTimeoutSecs
        source.requestTimeoutSecs := running.source.requestTimeoutSecs
        observability := running.observability } :=
  rfl

@[simp] theorem pinTo_self (config : RelayConfig) :
    pinTo config config = config :=
  rfl

/-- Only the startup settings of the running configuration matter. -/
@[simp] theorem pinTo_pinTo (running between next : RelayConfig) :
    pinTo (pinTo running between) next = pinTo running next :=
  rfl

/-- Startup settings are those of the running configuration. -/
theorem agrees_pinTo_of_mem
    {setting : Setting}
    (isStartup : setting ∈ startupSettings)
    (running next : RelayConfig) :
    setting.agrees running (pinTo running next) = true := by
  rw [Setting.agrees_iff]
  cases setting with
  | bindAddress | connectTimeoutSecs | requestTimeoutSecs | logLevel
  | metricsEnabled | metricsAddress =>
      rfl
  | _ =>
      simp [startupSettings] at isStartup

/-- All other settings are those of the next configuration. -/
private theorem agrees_pinTo_of_notMem
    {setting : Setting}
    (isLive : setting ∉ startupSettings)
    (running next : RelayConfig) :
    setting.agrees next (pinTo running next) = true := by
  rw [Setting.agrees_iff]
  cases setting with
  | bindAddress | connectTimeoutSecs | requestTimeoutSecs | logLevel
  | metricsEnabled | metricsAddress =>
      simp [startupSettings] at isLive
  | _ =>
      rfl

/-- A pinned configuration is the one that has its settings from there. -/
theorem eq_pinTo_iff {running next config : RelayConfig} :
    config = pinTo running next ↔
      ∀ setting : Setting,
        setting.agrees
          (if setting ∈ startupSettings then running else next)
          config = true := by
  have pinned (setting : Setting) :
      setting.agrees
        (if setting ∈ startupSettings then running else next)
        (pinTo running next) = true := by
    split
    · next isStartup =>
        exact agrees_pinTo_of_mem isStartup running next
    · next isLive =>
        exact agrees_pinTo_of_notMem isLive running next
  constructor
  · rintro rfl
    exact pinned
  · intro agreed
    refine Setting.eq_of_agrees fun setting => ?_
    rw [← Setting.agrees_congr (agreed setting)]
    exact pinned setting

/--
The startup settings that are reported do not depend on what was pinned
before.
-/
theorem pinnedSettings_pinTo (running between next : RelayConfig) :
    pinnedSettings (pinTo running between) next =
      pinnedSettings running next := by
  refine List.filter_congr ?_
  intro setting isStartup
  rw [Setting.agrees_congr (agrees_pinTo_of_mem isStartup running between)]

/-- The violations of rules about startup settings. -/
def startupViolations (config : RelayConfig) : List Violation :=
  demand (isAddress config.listener.bindAddress)
      (.invalidAddress .bindAddress config.listener.bindAddress) ++
    demand
      (!config.observability.metricsEnabled ||
        isAddress config.observability.metricsAddress)
      (.invalidAddress .metricsAddress config.observability.metricsAddress) ++
    checkPositive .connectTimeoutSecs config.source.connectTimeoutSecs ++
    checkPositive .requestTimeoutSecs config.source.requestTimeoutSecs

/-- The violations of rules about all other settings. -/
def liveViolations (config : RelayConfig) : List Violation :=
  checkUrl .sseUrl config.source.sseUrl ++
    checkUrl .apiUrl config.source.apiUrl ++
    checkPositive .channelCapacity config.relay.channelCapacity ++
    checkPositive .keepAliveSecs config.relay.keepAliveSecs ++
    checkPositive .maxFrameBytes config.relay.maxFrameBytes ++
    checkBackoff config.backoff ++
    demand (isCookieName config.auth.cookieName)
      (.cookieName config.auth.cookieName) ++
    demand
      (config.auth.cookieSameSite != .none || config.auth.cookieSecure)
      .insecureSameSiteNone

/-- Every rule is about startup settings only, or about none of them. -/
theorem isValid_iff {config : RelayConfig} :
    isValid config = true ↔
      startupViolations config = [] ∧ liveViolations config = [] := by
  simp only [isValid, violations, startupViolations, liveViolations,
    List.isEmpty_iff, List.append_eq_nil_iff]
  -- The same conditions, in another order.
  refine iff_of_eq ?_
  ac_rfl

/-- Violations are found where the settings come from. -/
private theorem isValid_pinTo_iff {running next : RelayConfig} :
    isValid (pinTo running next) = true ↔
      startupViolations running = [] ∧ liveViolations next = [] :=
  isValid_iff

/-- Two valid configurations stay valid when one is pinned to the other. -/
theorem isValid_pinTo
    {running next : RelayConfig}
    (validRunning : isValid running = true)
    (validNext : isValid next = true) :
    isValid (pinTo running next) = true :=
  isValid_pinTo_iff.mpr
    ⟨(isValid_iff.mp validRunning).1, (isValid_iff.mp validNext).2⟩

end EventRelay.Config
