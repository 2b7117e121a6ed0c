import EventRelay.Proofs.Config.Accepting
import EventRelay.Proofs.Config.Counted
import EventRelay.Proofs.Config.Values

namespace EventRelay.Config

/-!
# Mending a configuration

A configuration that was turned down is mended by changing the settings that
its violations name, and no others.  This succeeds for every configuration but
those with growing delays of which both the first and the longest are zero:
there the first delay is reported alone, and nothing that it could be changed
to is within the longest.
-/

/-- The settings that violations name. -/
def namedBy (found : List Violation) : List Setting :=
  found.flatMap Violation.named

/-- The settings that the violations of a configuration name. -/
def namedSettings (config : RelayConfig) : List Setting :=
  namedBy (violations config)

/-- What is wrong with a setting that is named. -/
def IsFaulty (config : RelayConfig) : Setting → Prop
  | .bindAddress =>
      isAddress config.listener.bindAddress = false
  | .metricsAddress =>
      config.observability.metricsEnabled = true ∧
        isAddress config.observability.metricsAddress = false
  | .sseUrl =>
      ∃ url ∈ config.source.sseUrl, isWebUrl url = false
  | .apiUrl =>
      ∃ url ∈ config.source.apiUrl, isWebUrl url = false
  | .connectTimeoutSecs =>
      config.source.connectTimeoutSecs = 0
  | .requestTimeoutSecs =>
      config.source.requestTimeoutSecs = 0
  | .channelCapacity =>
      config.relay.channelCapacity = 0
  | .keepAliveSecs =>
      config.relay.keepAliveSecs = 0
  | .maxFrameBytes =>
      config.relay.maxFrameBytes = 0
  | .delayMs =>
      config.backoff.strategy = .fixed ∧ config.backoff.delayMs = 0
  | .baseDelayMs =>
      config.backoff.strategy = .exponential ∧
        (config.backoff.baseDelayMs = 0 ∨
          config.backoff.maxDelayMs < config.backoff.baseDelayMs)
  | .maxDelayMs =>
      config.backoff.strategy = .exponential ∧
        config.backoff.baseDelayMs ≠ 0 ∧
          config.backoff.maxDelayMs < config.backoff.baseDelayMs
  | .cookieName =>
      isCookieName config.auth.cookieName = false
  | .cookieSecure | .cookieSameSite =>
      config.auth.cookieSameSite = .none ∧ config.auth.cookieSecure = false
  | _ =>
      False

variable {setting named : Setting}

private theorem mem_namedBy_append_iff {first second : List Violation} :
    setting ∈ namedBy (first ++ second) ↔
      setting ∈ namedBy first ∨ setting ∈ namedBy second := by
  rw [namedBy, List.flatMap_append, List.mem_append]
  rfl

/-- A demand names its settings exactly when it does not hold. -/
private theorem mem_namedBy_demand_iff {holds : Bool} {violation : Violation} :
    setting ∈ namedBy (demand holds violation) ↔
      holds = false ∧ setting ∈ violation.named := by
  cases holds <;> simp [demand, namedBy]

/--
The check of a URL names its setting exactly when there is one that is no web
URL.
-/
private theorem mem_namedBy_checkUrl_iff {value : Option String} :
    setting ∈ namedBy (checkUrl named value) ↔
      (∃ url ∈ value, isWebUrl url = false) ∧ setting = named := by
  cases value with
  | none =>
      simp [checkUrl, namedBy]
  | some url =>
      simp [checkUrl, mem_namedBy_demand_iff, Violation.named]

/-- The check of a number names its setting exactly when it is zero. -/
private theorem mem_namedBy_checkPositive_iff {value : Nat} :
    setting ∈ namedBy (checkPositive named value) ↔
      value = 0 ∧ setting = named := by
  simp [checkPositive, mem_namedBy_demand_iff, Violation.named]

/--
The check of the backoff names a single setting that is zero, or both delays
when they are in the wrong order.
-/
private theorem mem_namedBy_checkBackoff_iff {backoff : Backoff} :
    setting ∈ namedBy (checkBackoff backoff) ↔
      (backoff.strategy = .fixed ∧ backoff.delayMs = 0 ∧
          setting = .delayMs) ∨
        backoff.strategy = .exponential ∧
          ((backoff.baseDelayMs = 0 ∧ setting = .baseDelayMs) ∨
            backoff.baseDelayMs ≠ 0 ∧
              backoff.maxDelayMs < backoff.baseDelayMs ∧
                (setting = .baseDelayMs ∨ setting = .maxDelayMs)) := by
  rw [checkBackoff]
  cases backoff.strategy with
  | fixed =>
      simp [mem_namedBy_checkPositive_iff]
  | exponential =>
      by_cases zero : backoff.baseDelayMs = 0
      · simp [zero, namedBy, Violation.named]
      · simp [zero, mem_namedBy_demand_iff, Violation.named]

/-- The settings that are named are those with a fault. -/
theorem mem_namedSettings_iff {config : RelayConfig} :
    setting ∈ namedSettings config ↔ IsFaulty config setting := by
  simp only [namedSettings, violations, mem_namedBy_append_iff,
    mem_namedBy_demand_iff, mem_namedBy_checkUrl_iff,
    mem_namedBy_checkPositive_iff, mem_namedBy_checkBackoff_iff,
    Violation.named]
  cases setting with
  | baseDelayMs =>
      by_cases zero : config.backoff.baseDelayMs = 0 <;>
        simp [IsFaulty, zero]
  | _ =>
      simp [IsFaulty]

/-- A configuration that has each of its settings from another one. -/
def RelayConfig.compose (giver : Setting → RelayConfig) : RelayConfig :=
  .ofValues fun setting => setting.get (giver setting)

/-- A configuration put together agrees with the giver of each setting. -/
private theorem agrees_compose (giver : Setting → RelayConfig) (setting : Setting) :
    setting.agrees (giver setting) (.compose giver) = true := by
  rw [Setting.agrees_iff_get_eq, RelayConfig.compose, Setting.get_ofValues]

/--
A configuration put together has numbers of 64 bits if all that it has them
from do.
-/
theorem allCounted_compose
    {giver : Setting → RelayConfig}
    (counted : ∀ setting, AllCounted (giver setting).numbers) :
    AllCounted (RelayConfig.compose giver).numbers := by
  simp only [AllCounted, RelayConfig.numbers, Source.numbers, Relay.numbers,
    Backoff.numbers, Auth.numbers, List.forall_mem_append,
    List.forall_mem_cons] at counted ⊢
  grind [RelayConfig.compose, RelayConfig.ofValues, Setting.get]

/--
A configuration that was mended: it is valid, and only settings that were
named have changed.
-/
structure Mends (config mended : RelayConfig) : Prop where
  valid : isValid mended = true
  kept :
    ∀ setting ∉ namedSettings config, setting.agrees config mended = true
  counted : AllCounted config.numbers → AllCounted mended.numbers

/-- Growing delays of which the first and the longest are both zero. -/
structure HidesLongest (backoff : Backoff) : Prop where
  grows : backoff.strategy = .exponential
  first : backoff.baseDelayMs = 0
  longest : backoff.maxDelayMs = 0

/--
Where the values of settings that are named come from: the defaults, with the
shortest first delay.
-/
def modest : RelayConfig :=
  { RelayConfig.standard with backoff.baseDelayMs := 1 }

private theorem accepted_modest : Accepted modest :=
  isValid_iff_accepted.mp (by decide +kernel)

/-- The configuration with modest values of the settings that are named. -/
def mended (config : RelayConfig) : RelayConfig :=
  .compose fun setting =>
    if setting ∈ namedSettings config then modest else config

/--
A setting of a mended configuration is in order if it is where it comes from.
-/
private theorem holds_of_sound
    (Holds : RelayConfig → Prop)
    {config : RelayConfig}
    {setting : Setting}
    (modestly : Holds modest)
    (soundly : ¬IsFaulty config setting → Holds config) :
    Holds (if setting ∈ namedSettings config then modest else config) := by
  split
  · exact modestly
  · next unnamed =>
      exact soundly (mem_namedSettings_iff.not.mp unnamed)

/--
The growing delays of a mended configuration are in order, unless the longest
was zero as well and was not named.
-/
private theorem growingDelay_mended
    {config : RelayConfig}
    (shown : ¬HidesLongest config.backoff)
    (grows : config.backoff.strategy = .exponential) :
    (mended config).backoff.baseDelayMs ≠ 0 ∧
      (mended config).backoff.baseDelayMs ≤
        (mended config).backoff.maxDelayMs := by
  simp only [mended, RelayConfig.compose, RelayConfig.ofValues, Setting.get,
    mem_namedSettings_iff, IsFaulty, grows, true_and]
  by_cases zero : config.backoff.baseDelayMs = 0
  · have positive : config.backoff.maxDelayMs ≠ 0 :=
      fun longest => shown ⟨grows, zero, longest⟩
    simp only [zero, true_or, if_true, ne_eq, not_true, false_and, if_false]
    exact ⟨by decide, Nat.pos_of_ne_zero positive⟩
  · by_cases above : config.backoff.maxDelayMs < config.backoff.baseDelayMs
    · simp only [zero, above, or_true, if_true, ne_eq, not_false_eq_true,
        true_and]
      decide
    · simp only [zero, above, or_false, if_false, ne_eq, not_false_eq_true,
        true_and]
      exact Nat.not_lt.mp above

/-- A mended configuration satisfies every rule. -/
private theorem accepted_mended
    {config : RelayConfig}
    (shown : ¬HidesLongest config.backoff) :
    Accepted (mended config) := by
  have unchanged (setting : Setting) (sound : ¬IsFaulty config setting) :
      (if setting ∈ namedSettings config then modest else config) = config :=
    if_neg (mem_namedSettings_iff.not.mpr sound)
  have ordered := growingDelay_mended shown
  simp only [mended, RelayConfig.compose, RelayConfig.ofValues,
    Setting.get] at ordered
  constructor
  all_goals
    simp only [mended, RelayConfig.compose, RelayConfig.ofValues, Setting.get]
  case bindAddress =>
    exact holds_of_sound
      (fun giver => isAddress giver.listener.bindAddress = true)
      accepted_modest.bindAddress eq_true_of_ne_false
  case metricsAddress =>
    rw [unchanged .metricsEnabled id]
    intro enabled
    exact holds_of_sound
      (fun giver => isAddress giver.observability.metricsAddress = true)
      (by decide +kernel)
      fun sound => eq_true_of_ne_false fun broken => sound ⟨enabled, broken⟩
  case sseUrl =>
    exact holds_of_sound
      (fun giver => ∀ url ∈ giver.source.sseUrl, isWebUrl url = true)
      accepted_modest.sseUrl
      fun sound url isUrl => eq_true_of_ne_false fun broken =>
        sound ⟨url, isUrl, broken⟩
  case apiUrl =>
    exact holds_of_sound
      (fun giver => ∀ url ∈ giver.source.apiUrl, isWebUrl url = true)
      accepted_modest.apiUrl
      fun sound url isUrl => eq_true_of_ne_false fun broken =>
        sound ⟨url, isUrl, broken⟩
  case connectTimeout =>
    exact holds_of_sound (fun giver => giver.source.connectTimeoutSecs ≠ 0)
      accepted_modest.connectTimeout id
  case requestTimeout =>
    exact holds_of_sound (fun giver => giver.source.requestTimeoutSecs ≠ 0)
      accepted_modest.requestTimeout id
  case channelCapacity =>
    exact holds_of_sound (fun giver => giver.relay.channelCapacity ≠ 0)
      accepted_modest.channelCapacity id
  case keepAlive =>
    exact holds_of_sound (fun giver => giver.relay.keepAliveSecs ≠ 0)
      accepted_modest.keepAlive id
  case maxFrameBytes =>
    exact holds_of_sound (fun giver => giver.relay.maxFrameBytes ≠ 0)
      accepted_modest.maxFrameBytes id
  case fixedDelay =>
    rw [unchanged .strategy id]
    intro fixed
    exact holds_of_sound (fun giver => giver.backoff.delayMs ≠ 0)
      (by decide) fun sound zero => sound ⟨fixed, zero⟩
  case growingDelay =>
    rw [unchanged .strategy id]
    exact ordered
  case cookieName =>
    exact holds_of_sound
      (fun giver => isCookieName giver.auth.cookieName = true)
      accepted_modest.cookieName eq_true_of_ne_false
  case sameSite =>
    -- Both settings of this rule are named, or none of them.
    simp only [mem_namedSettings_iff, IsFaulty]
    split
    · exact accepted_modest.sameSite
    · next sound =>
        exact fun isNone => eq_true_of_ne_false fun insecure =>
          sound ⟨isNone, insecure⟩

/-- Mending changes the settings that are named, and no others. -/
private theorem mends_mended
    {config : RelayConfig}
    (shown : ¬HidesLongest config.backoff) :
    Mends config (mended config) where
  valid :=
    isValid_iff_accepted.mpr (accepted_mended shown)
  kept setting unnamed := by
    have agrees := agrees_compose
      (fun setting => if setting ∈ namedSettings config then modest else config)
      setting
    rwa [if_neg unnamed] at agrees
  counted counted := by
    refine allCounted_compose fun setting => ?_
    split
    · decide
    · exact counted

/-- Nothing mends growing delays whose longest is zero and not named. -/
theorem not_mends_of_hidesLongest
    {config mended : RelayConfig}
    (hidden : HidesLongest config.backoff) :
    ¬Mends config mended := by
  intro mends
  have unnamed {setting : Setting} (sound : ¬IsFaulty config setting) :
      setting.carry config mended = mended :=
    Setting.agrees_iff.mp
      (mends.kept setting (mem_namedSettings_iff.not.mpr sound))
  have strategy : Setting.strategy.carry config mended = mended :=
    unnamed id
  have longest : Setting.maxDelayMs.carry config mended = mended :=
    unnamed fun faulty => faulty.2.1 hidden.first
  have grows : mended.backoff.strategy = .exponential := by
    rw [← strategy]
    exact hidden.grows
  have isZero : mended.backoff.maxDelayMs = 0 := by
    rw [← longest]
    exact hidden.longest
  obtain ⟨positive, ordered⟩ :=
    (isValid_iff_accepted.mp mends.valid).growingDelay grows
  omega

/--
The violations of a configuration name enough settings to mend it, unless they
hide that the longest of the growing delays is zero.
-/
theorem mendable_iff (config : RelayConfig) :
    (∃ mended, Mends config mended) ↔ ¬HidesLongest config.backoff := by
  constructor
  · rintro ⟨mended, mends⟩ hidden
    exact not_mends_of_hidesLongest hidden mends
  · intro shown
    exact ⟨mended config, mends_mended shown⟩

/-- Growing delays that are all zero. -/
def motionless : RelayConfig :=
  { RelayConfig.standard with
    backoff.strategy := .exponential
    backoff.baseDelayMs := 0
    backoff.maxDelayMs := 0 }

/--
Of two delays that are zero only the first is reported, and no change of it
makes the configuration valid.
-/
theorem motionless_cannot_be_mended :
    violations motionless = [.zero .baseDelayMs] ∧
      ∀ mended, ¬Mends motionless mended :=
  ⟨by decide +kernel, fun _ => not_mends_of_hidesLongest ⟨rfl, rfl, rfl⟩⟩

end EventRelay.Config
