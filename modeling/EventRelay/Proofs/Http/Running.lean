import EventRelay.Proofs.Config.Accepting
import EventRelay.Proofs.Config.Counted
import EventRelay.Proofs.Http.Gate
import EventRelay.Proofs.Timing.Delay

namespace EventRelay.Http

/-!
# Configurations that run safely

A server breaks down when a channel cannot be made as large as it should be,
and when a deadline or a delay cannot be counted in 64 bits.  The rules of
validation exclude small numbers only, so that three upper limits remain: a
valid configuration runs safely if and only if it keeps to them.
-/

open Config (RelayConfig)

/-- Nothing that is computed from a configuration breaks a server down. -/
structure RunsSafely (config : RelayConfig) : Prop where
  channel :
    (Downstream.Channel.new? config.relay.channelCapacity).isSome = true
  deadline : (Server.deadlineSecs? config).isSome = true
  delays :
    ∀ failures jitter,
      config.backoff.policy.delay failures jitter ≤ Timing.maxWord

namespace Server

private theorem answerRoute?_isSome
    {config : RelayConfig}
    (runs : RunsSafely config)
    (network : Network)
    (request : Request)
    (route : Route)
    (parameters : List (List Char)) :
    (answerRoute? config network request route parameters).isSome = true := by
  cases route with
  | events =>
      obtain ⟨channel, made⟩ := Option.isSome_iff_exists.mp runs.channel
      simp [answerRoute?, answerEvents?, made]
  | _ =>
      rfl

private theorem answer?_isSome
    {config : RelayConfig}
    (runs : RunsSafely config)
    (network : Network)
    (request : Request)
    (route : Route)
    (parameters : List (List Char)) :
    (answer? config network request route parameters).isSome = true := by
  obtain ⟨exchange, answered⟩ := Option.isSome_iff_exists.mp
    (answerRoute?_isSome runs network request route parameters)
  rw [answer?, answered]
  split
  · rfl
  · simp only [Option.bind_eq_bind, Option.bind_some]
    split <;> rfl

/-- A server that runs safely answers every request. -/
theorem handle?_isSome
    {server : Server}
    (runs : RunsSafely server.config)
    (network : Network)
    (request : Request) :
    (server.handle? network request).isSome = true := by
  unfold handle?
  split
  · unfold route?
    split
    · rfl
    · next route parameters _ =>
        obtain ⟨exchange, answered⟩ := Option.isSome_iff_exists.mp
          (answer?_isSome runs network request route parameters)
        rw [answered]
        rfl
  · rfl

end Server

private theorem new?_isSome_iff {capacity : Nat} :
    (Downstream.Channel.new? capacity).isSome = true ↔
      capacity ≤ Downstream.maxCapacity := by
  rw [Downstream.Channel.new?, Option.isSome_ite]

private theorem deadlineSecs?_isSome_iff {config : RelayConfig} :
    (Server.deadlineSecs? config).isSome = true ↔
      config.source.connectTimeoutSecs + config.source.requestTimeoutSecs ≤
        Server.maxSecs := by
  simp only [Server.deadlineSecs?]
  rw [Option.isSome_ite]

/-- Only delays that grow can become too long. -/
theorem delays_le_maxWord_iff
    {config : RelayConfig}
    (valid : Config.isValid config = true)
    (counted : Config.AllCounted config.numbers) :
    (∀ failures jitter,
        config.backoff.policy.delay failures jitter ≤ Timing.maxWord) ↔
      (config.backoff.strategy = .exponential →
        config.backoff.maxDelayMs + max 1 (config.backoff.maxDelayMs / 10) ≤
          Timing.maxWord + 1) := by
  have accepted := Config.isValid_iff_accepted.mp valid
  cases strategy : config.backoff.strategy with
  | fixed =>
      have policy :
          config.backoff.policy = .fixed config.backoff.delayMs := by
        rw [Config.Backoff.policy, strategy]
      have fits : config.backoff.delayMs ≤ Timing.maxWord :=
        counted _ (by
          simp [RelayConfig.numbers, Config.Backoff.numbers])
      rw [policy]
      constructor
      · intro _ grows
        contradiction
      · intro _ failures jitter
        rw [Timing.BackoffPolicy.delay, Timing.BackoffPolicy.choices,
          Nat.mod_one]
        exact fits
  | exponential =>
      have policy :
          config.backoff.policy =
            .exponential config.backoff.baseDelayMs
              config.backoff.maxDelayMs := by
        rw [Config.Backoff.policy, strategy]
      have positive := (accepted.growingDelay strategy).1
      have fits : config.backoff.maxDelayMs ≤ Timing.maxWord :=
        counted _ (by
          simp [RelayConfig.numbers, Config.Backoff.numbers])
      rw [policy,
        Timing.BackoffPolicy.exponential_delay_le_iff positive fits]
      exact ⟨fun bounded _ => bounded, fun bounded => bounded rfl⟩

/--
Validity does not suffice for running safely: what is missing is that the
channel is not too large, that the deadline of a request can be counted, and
that the longest delay can be counted with its jitter.
-/
theorem runsSafely_iff
    {config : RelayConfig}
    (valid : Config.isValid config = true)
    (counted : Config.AllCounted config.numbers) :
    RunsSafely config ↔
      config.relay.channelCapacity ≤ Downstream.maxCapacity ∧
        config.source.connectTimeoutSecs + config.source.requestTimeoutSecs ≤
          Server.maxSecs ∧
          (config.backoff.strategy = .exponential →
            config.backoff.maxDelayMs +
                max 1 (config.backoff.maxDelayMs / 10) ≤
              Timing.maxWord + 1) := by
  rw [← new?_isSome_iff, ← deadlineSecs?_isSome_iff,
    ← delays_le_maxWord_iff valid counted]
  constructor
  · rintro ⟨channel, deadline, delays⟩
    exact ⟨channel, deadline, delays⟩
  · rintro ⟨channel, deadline, delays⟩
    exact ⟨channel, deadline, delays⟩

/-- Delays that grow to half a minute, and all else by default. -/
def growing : RelayConfig :=
  { RelayConfig.standard with backoff.strategy := .exponential }

/-- With usual numbers a relay runs safely. -/
theorem runsSafely_growing :
    (Config.isValid growing = true ∧ Config.AllCounted growing.numbers) ∧
      RunsSafely growing := by
  have valid : Config.isValid growing = true := by
    decide +kernel
  have counted : Config.AllCounted growing.numbers := by
    decide
  have fits :
      growing.backoff.maxDelayMs + max 1 (growing.backoff.maxDelayMs / 10) ≤
        Timing.maxWord + 1 := by
    decide
  exact ⟨⟨valid, counted⟩,
    (runsSafely_iff valid counted).mpr ⟨by decide, by decide, fun _ => fits⟩⟩

/-- A file that asks for a channel of more events than one can hold. -/
def hugeChannelFile : Config.File :=
  .content (Text.Utf8.bytesOf
    "[relay]\nchannel_capacity = 2305843009213693952\n")

/--
A file is loaded, and hence valid, whose channel cannot be made: a server
starts with it and breaks down at the first subscription.
-/
theorem hugeChannel_breaks_down :
    let config : RelayConfig :=
      { RelayConfig.standard with
        relay.channelCapacity := Downstream.maxCapacity + 1 }
    Config.load .empty (some hugeChannelFile) = .ok config ∧
      Config.isValid config = true ∧
        Config.AllCounted config.numbers ∧
          Downstream.Channel.new? config.relay.channelCapacity = none ∧
            (Server.new? config).isSome = true ∧
              (Server.mk config .empty).handle? .unreachable
                  ⟨"GET", "/events".toList, [], []⟩ =
                none := by
  decide +kernel

section

variable
  {environment : Config.Environment}
  {file : Option Config.File}
  {config : RelayConfig}

/--
Of the three limits a file can only fail to keep to the first one: its numbers
are too small for sums and delays that cannot be counted.
-/
private theorem runsSafely_iff_of_load
    (loads : Config.load environment file = .ok config) :
    RunsSafely config ↔
      config.relay.channelCapacity ≤ Downstream.maxCapacity := by
  rw [← new?_isSome_iff]
  refine ⟨RunsSafely.channel, fun channel => ?_⟩
  have valid := Config.isValid_of_load loads
  have signed := Config.allSigned_of_load loads
  have connect := signed config.source.connectTimeoutSecs
    (by simp [RelayConfig.numbers, Config.Source.numbers])
  have request := signed config.source.requestTimeoutSecs
    (by simp [RelayConfig.numbers, Config.Source.numbers])
  have longest := signed config.backoff.maxDelayMs
    (by simp [RelayConfig.numbers, Config.Backoff.numbers])
  simp only [Config.maxSigned] at connect request longest
  refine ⟨channel, deadlineSecs?_isSome_iff.mpr ?_,
    (delays_le_maxWord_iff valid (Config.allCounted_of_load loads)).mpr
      fun _ => ?_⟩
  · rw [Server.maxSecs]
    omega
  · rw [Timing.maxWord]
    omega

/--
A relay that a file configures answers every request, unless its channel is
too large to be made.
-/
theorem serves_of_load
    (loads : Config.load environment file = .ok config)
    (fits : config.relay.channelCapacity ≤ Downstream.maxCapacity) :
    ∃ server,
      Server.new? config = some server ∧
        ∀ network request,
          (server.handle? network request).isSome = true := by
  have runs := (runsSafely_iff_of_load loads).mpr fits
  obtain ⟨secs, counted⟩ := Option.isSome_iff_exists.mp runs.deadline
  refine ⟨⟨config, .empty⟩, ?_, Server.handle?_isSome runs⟩
  rw [Server.new?, counted]
  rfl

end

end EventRelay.Http
