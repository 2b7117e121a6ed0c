import EventRelay.Proofs.Config.Accepting
import EventRelay.Proofs.Config.Counted
import EventRelay.Proofs.Timing.Delay
import Mathlib.Data.List.Basic

namespace EventRelay.Config

/-!
# Delays of loaded configurations

The numbers of a loaded configuration leave room for jitter, and its rules
leave no delay empty.  So the delays of its policy can be computed as if
numbers had no bound.
-/

open Timing (BackoffPolicy doubledDelay maxWord)

namespace Backoff

variable {backoff : Backoff}

/-- A fixed delay is the configured one. -/
theorem delay_of_fixed
    (isFixed : backoff.strategy = .fixed)
    (failures jitter : Nat) :
    backoff.policy.delay failures jitter = backoff.delayMs := by
  have isPolicy : backoff.policy = .fixed backoff.delayMs := by
    rw [policy, isFixed]
  rw [isPolicy, BackoffPolicy.delay, BackoffPolicy.choices, Nat.mod_one]
  rfl

private theorem policy_of_exponential (doubles : backoff.strategy = .exponential) :
    backoff.policy =
      .exponential backoff.baseDelayMs backoff.maxDelayMs := by
  rw [policy, doubles]

/-- A doubling delay is the exact one with its jitter. -/
private theorem delay_of_exponential
    (doubles : backoff.strategy = .exponential)
    (counted : backoff.maxDelayMs ≤ maxWord)
    (failures jitter : Nat) :
    backoff.policy.delay failures jitter =
      doubledDelay backoff.baseDelayMs backoff.maxDelayMs failures +
        jitter % max 1
          (doubledDelay backoff.baseDelayMs backoff.maxDelayMs failures /
            10) := by
  rw [policy_of_exponential doubles]
  exact BackoffPolicy.delay_exponential counted failures jitter

end Backoff

/-- The delays of a policy that doubles from a base to a longest delay. -/
structure Doubles (base longest : Nat) (delay : Nat → Nat → Nat) : Prop where
  /-- A delay is the exact one, lengthened by less than a tenth of it. -/
  exact :
    ∀ failures jitter,
      delay failures jitter =
        doubledDelay base longest failures +
          jitter % max 1 (doubledDelay base longest failures / 10)
  /-- No sum exceeds 64 bits. -/
  counted : ∀ failures jitter, delay failures jitter ≤ maxWord
  /-- Without jitter, delays do not shrink. -/
  grows :
    ∀ {failures more},
      failures ≤ more →
      doubledDelay base longest failures ≤ doubledDelay base longest more
  /-- From the 65th failure on, delays are the longest. -/
  ends :
    ∀ {failures}, 65 ≤ failures →
      doubledDelay base longest failures = longest
  /-- Even with jitter, delays stay below eleven tenths of the longest. -/
  below : ∀ failures jitter, 10 * delay failures jitter < 11 * longest

/-- A configuration that doubles its delays has them as its rules demand. -/
private theorem doubles_of_load
    {environment : Environment}
    {file : Option File}
    {config : RelayConfig}
    (loads : load environment file = .ok config)
    (strategy : config.backoff.strategy = .exponential) :
    Doubles config.backoff.baseDelayMs config.backoff.maxDelayMs
      config.backoff.policy.delay := by
  obtain ⟨notZero, ordered⟩ :=
    (isValid_iff_accepted.mp (isValid_of_load loads)).growingDelay strategy
  have positive := Nat.pos_of_ne_zero notZero
  have signed : config.backoff.maxDelayMs ≤ maxSigned :=
    allSigned_of_load loads _ (by simp [RelayConfig.numbers, Backoff.numbers])
  have counted : config.backoff.maxDelayMs ≤ maxWord :=
    Nat.le_trans signed (by decide)
  have below (failures jitter : Nat) :
      10 * config.backoff.policy.delay failures jitter <
        11 * config.backoff.maxDelayMs := by
    rw [Backoff.policy_of_exponential strategy]
    exact BackoffPolicy.delay_exponential_lt positive ordered counted failures
      jitter
  refine ⟨Backoff.delay_of_exponential strategy counted, ?counted,
    Timing.doubledDelay_mono _ counted,
    Timing.doubledDelay_of_late positive counted, below⟩
  case counted =>
    intro failures jitter
    have less : 10 * config.backoff.policy.delay failures jitter <
        10 * maxWord :=
      Nat.lt_of_lt_of_le (below failures jitter)
        (Nat.le_trans (Nat.mul_le_mul_left 11 signed) (by decide))
    exact Nat.le_of_lt (Nat.lt_of_mul_lt_mul_left less)

/-- The delays of a backoff. -/
structure Delays (backoff : Backoff) : Prop where
  /-- A fixed delay is the configured one. -/
  fixed :
    backoff.strategy = .fixed →
    ∀ failures jitter, backoff.policy.delay failures jitter = backoff.delayMs
  /-- Other delays double, from the least to the longest that is configured. -/
  doubling :
    backoff.strategy = .exponential →
    Doubles backoff.baseDelayMs backoff.maxDelayMs backoff.policy.delay
  /-- No delay is empty. -/
  positive : ∀ failures jitter, 1 ≤ backoff.policy.delay failures jitter

/--
The delays of a loaded configuration.  A fixed delay is the configured one.  A
doubling delay is the exact one, lengthened by a jitter of less than a tenth
of it without exceeding 64 bits; it does not shrink, ends at the configured
maximum, and stays below eleven tenths of that.  No delay is empty.
-/
theorem delays_of_load
    {environment : Environment}
    {file : Option File}
    {config : RelayConfig}
    (loads : load environment file = .ok config) :
    Delays config.backoff := by
  have accepted := isValid_iff_accepted.mp (isValid_of_load loads)
  refine ⟨Backoff.delay_of_fixed, doubles_of_load loads, ?positive⟩
  case positive =>
    intro failures jitter
    cases strategy : config.backoff.strategy with
    | fixed =>
        rw [Backoff.delay_of_fixed strategy]
        exact Nat.pos_of_ne_zero (accepted.fixedDelay strategy)
    | exponential =>
        obtain ⟨positive, ordered⟩ := accepted.growingDelay strategy
        rw [(doubles_of_load loads strategy).exact]
        exact Nat.le_trans
          (Timing.doubledDelay_pos (Nat.pos_of_ne_zero positive) ordered
            failures)
          (Nat.le_add_right _ _)

/-- Doubling delays up to the longest that a file can ask for. -/
def patientFile : File :=
  .content (Text.Utf8.bytesOf
    "[backoff]
strategy = 'exponential'
base_delay_ms = 3
max_delay_ms = 9223372036854775807
")

/-- The configuration of the file with the longest delays. -/
def patient : RelayConfig :=
  { RelayConfig.standard with
    backoff.strategy := .exponential
    backoff.baseDelayMs := 3
    backoff.maxDelayMs := maxSigned }

/-- Even the longest delay that a file can ask for fits in 64 bits. -/
theorem delays_of_patientFile :
    load .empty (some patientFile) = .ok patient ∧
      ∀ failures jitter,
        patient.backoff.policy.delay failures jitter ≤ maxWord := by
  have loads : load .empty (some patientFile) = .ok patient := by
    decide +kernel
  exact ⟨loads, ((delays_of_load loads).doubling rfl).counted⟩

end EventRelay.Config
