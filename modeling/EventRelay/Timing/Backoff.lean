import EventRelay.Timing.Duration

namespace EventRelay.Timing

/-!
# Reconnect delays

A delay is fixed, or doubles with each failure up to a cap.  A doubling delay
is lengthened by a jitter of less than a tenth of it.  Intermediate products
saturate at 64 bits, which the cap makes invisible.
-/

/-- Replaces numbers beyond 64 bits by the largest that fits. -/
def saturate (value : Nat) : Nat :=
  min value maxWord

/-- Two to a power, saturated. -/
def saturatingPower (exponent : Nat) : Nat :=
  if exponent < 64 then
    Nat.pow 2 exponent
  else
    maxWord

/-- The delay of an attempt before jitter; the attempt numbered zero has none. -/
def cappedDelay (attempt base cap : Nat) : Milliseconds :=
  if attempt = 0 then
    0
  else
    min (saturate (base * saturatingPower (attempt - 1))) cap

/-- The number of values that jitter may take, from zero up. -/
def jitterChoices (capped : Milliseconds) : Nat :=
  max 1 (capped / 10)

/-- How long to wait before connecting again. -/
inductive BackoffPolicy where
  /-- The same delay after every failure. -/
  | fixed (delay : Milliseconds)
  /-- A doubling delay from a base up to a cap. -/
  | exponential (base cap : Milliseconds)
  deriving Repr, DecidableEq

namespace BackoffPolicy

/-- The policy where none is chosen: five seconds. -/
def standard : BackoffPolicy :=
  .fixed 5000

/-- The delay after a number of consecutive failures, before jitter. -/
def leastDelay (policy : BackoffPolicy) (failures : Nat) : Milliseconds :=
  match policy with
  | .fixed delay =>
      delay
  | .exponential base cap =>
      cappedDelay (max failures 1) base cap

/-- The number of values that the jitter of a delay may take. -/
def choices (policy : BackoffPolicy) (failures : Nat) : Nat :=
  match policy with
  | .fixed _ =>
      1
  | .exponential _ _ =>
      jitterChoices (policy.leastDelay failures)

/-- The delay after a number of consecutive failures, with a drawn jitter. -/
def delay (policy : BackoffPolicy) (failures jitter : Nat) : Milliseconds :=
  policy.leastDelay failures + jitter % policy.choices failures

end BackoffPolicy

/-- The delays that may be drawn: a least one and a number of choices. -/
structure DelayRange where
  least : Milliseconds
  choices : Nat
  deriving Repr, DecidableEq

namespace DelayRange

/-- The delays of an attempt numbered from one. -/
def ofAttempt (attempt base cap : Nat) : DelayRange :=
  let capped := cappedDelay attempt base cap
  ⟨capped, jitterChoices capped⟩

/-- The delays of a policy after a number of failures. -/
def ofPolicy (policy : BackoffPolicy) (failures : Nat) : DelayRange :=
  ⟨policy.leastDelay failures, policy.choices failures⟩

/-- Whether every delay can be counted in 64 bits. -/
def fits (range : DelayRange) : Bool :=
  range.least + range.choices ≤ maxWord + 1

/-- Whether only one delay may be drawn. -/
def isConstant (range : DelayRange) : Bool :=
  range.choices ≤ 1

/-- Whether every delay lies below a threshold. -/
def alwaysBelow (range : DelayRange) (threshold : Nat) : Bool :=
  range.least + range.choices ≤ threshold

/-- Whether no delay lies below a threshold. -/
def neverBelow (range : DelayRange) (threshold : Nat) : Bool :=
  threshold ≤ range.least

end DelayRange

end EventRelay.Timing
