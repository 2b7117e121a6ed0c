import EventRelay.Timing.Backoff

namespace EventRelay.Timing

/-!
# Delays grow with failures

Neither saturation nor the cap makes a delay shorter after more failures, and
after many failures the delay is the cap.  Below a cap of 64 bits, saturation
does not show at all.
-/

/-- A saturating power stays within 64 bits. -/
private theorem saturatingPower_le_maxWord (exponent : Nat) :
    saturatingPower exponent ≤ maxWord := by
  unfold saturatingPower
  split
  · next small =>
      have below : 2 ^ exponent ≤ 2 ^ 63 :=
        Nat.pow_le_pow_right (by decide) (Nat.le_of_lt_succ small)
      exact Nat.le_trans below (by decide)
  · exact Nat.le_refl _

/-- A saturated power does not shrink as its exponent grows. -/
private theorem saturatingPower_mono
    {exponent larger : Nat}
    (grows : exponent ≤ larger) :
    saturatingPower exponent ≤ saturatingPower larger := by
  by_cases small : larger < 64
  · have smaller : exponent < 64 := Nat.lt_of_le_of_lt grows small
    rw [saturatingPower, saturatingPower, if_pos smaller, if_pos small]
    exact Nat.pow_le_pow_right (by decide) grows
  · rw [saturatingPower.eq_1 larger, if_neg small]
    exact saturatingPower_le_maxWord exponent

private theorem saturate_mono
    {value larger : Nat}
    (grows : value ≤ larger) :
    saturate value ≤ saturate larger := by
  unfold saturate
  omega

/-- A capped delay does not shrink from one attempt to a later one. -/
private theorem cappedDelay_mono
    {attempt later : Nat}
    (base cap : Nat)
    (grows : attempt ≤ later) :
    cappedDelay attempt base cap ≤ cappedDelay later base cap := by
  by_cases first : attempt = 0
  · rw [cappedDelay, if_pos first]
    exact Nat.zero_le _
  · have notFirst : later ≠ 0 := by
      omega
    have powers :=
      saturatingPower_mono (Nat.sub_le_sub_right grows 1)
    have products := saturate_mono (Nat.mul_le_mul_left base powers)
    rw [cappedDelay, cappedDelay, if_neg first, if_neg notFirst]
    exact Nat.le_min.mpr
      ⟨Nat.le_trans (Nat.min_le_left _ _) products, Nat.min_le_right _ _⟩

namespace BackoffPolicy

/-- The least delay does not shrink as failures grow. -/
theorem leastDelay_mono
    {failures more : Nat}
    (policy : BackoffPolicy)
    (grows : failures ≤ more) :
    policy.leastDelay failures ≤ policy.leastDelay more := by
  cases policy with
  | fixed delay =>
      exact Nat.le_refl _
  | exponential base cap =>
      have clamped : max failures 1 ≤ max more 1 := by
        omega
      exact cappedDelay_mono base cap clamped

/-- Jitter only lengthens a delay. -/
theorem leastDelay_le_delay
    (policy : BackoffPolicy)
    (failures jitter : Nat) :
    policy.leastDelay failures ≤ policy.delay failures jitter :=
  Nat.le_add_right _ _

end BackoffPolicy

/-- From the exponent 64 on, the power is saturated. -/
private theorem saturatingPower_of_large
    {exponent : Nat}
    (large : 64 ≤ exponent) :
    saturatingPower exponent = maxWord :=
  if_neg (Nat.not_lt.mpr large)

/-- A delay stays within its cap. -/
private theorem cappedDelay_le_cap (attempt base cap : Nat) :
    cappedDelay attempt base cap ≤ cap := by
  unfold cappedDelay
  split
  · exact Nat.zero_le _
  · exact Nat.min_le_right _ _

/-- Late attempts wait as long as the cap. -/
theorem cappedDelay_of_late
    {attempt base cap : Nat}
    (late : 64 < attempt)
    (positive : base ≠ 0)
    (counted : cap ≤ maxWord) :
    cappedDelay attempt base cap = cap := by
  have notFirst : attempt ≠ 0 := by
    omega
  have saturated : maxWord ≤ base * maxWord :=
    Nat.le_mul_of_pos_left _ (Nat.pos_of_ne_zero positive)
  rw [cappedDelay, if_neg notFirst, saturatingPower_of_large (by omega),
    saturate, Nat.min_eq_right saturated, Nat.min_eq_right counted]

/-- Longer delays have more jitter. -/
theorem jitterChoices_mono
    {capped longer : Nat}
    (grows : capped ≤ longer) :
    jitterChoices capped ≤ jitterChoices longer := by
  unfold jitterChoices
  omega

namespace BackoffPolicy

/-- There is always some jitter to choose. -/
private theorem choices_pos (policy : BackoffPolicy) (failures : Nat) :
    0 < policy.choices failures := by
  cases policy with
  | fixed delay =>
      exact Nat.one_pos
  | exponential base cap =>
      exact Nat.lt_of_lt_of_le Nat.one_pos (Nat.le_max_left _ _)

/-- The largest jitter is one less than the number of choices. -/
private theorem delay_le_iff {policy : BackoffPolicy} {failures bound : Nat} :
    (∀ jitter, policy.delay failures jitter ≤ bound) ↔
      policy.leastDelay failures + policy.choices failures ≤ bound + 1 := by
  have positive := policy.choices_pos failures
  constructor
  · intro bounded
    have largest := bounded (policy.choices failures - 1)
    rw [delay, Nat.mod_eq_of_lt (Nat.sub_one_lt_of_lt positive)] at largest
    rw [← Nat.sub_add_cancel positive]
    exact Nat.succ_le_succ largest
  · intro bounded jitter
    have smaller : jitter % policy.choices failures < policy.choices failures :=
      Nat.mod_lt _ positive
    exact Nat.le_of_lt_succ
      (Nat.lt_of_lt_of_le (Nat.add_lt_add_left smaller _) bounded)

/--
The longest of all delays is the cap with the largest jitter: sixty-five
failures lead to the cap.
-/
theorem exponential_delay_le_iff
    {base cap bound : Nat}
    (positive : base ≠ 0)
    (counted : cap ≤ maxWord) :
    (∀ failures jitter,
        (exponential base cap).delay failures jitter ≤ bound) ↔
      cap + jitterChoices cap ≤ bound + 1 := by
  simp only [delay_le_iff]
  constructor
  · intro bounded
    have capped : (exponential base cap).leastDelay 65 = cap :=
      cappedDelay_of_late (by decide) positive counted
    have late := bounded 65
    rw [choices, capped] at late
    exact late
  · intro bounded failures
    have capped : (exponential base cap).leastDelay failures ≤ cap :=
      cappedDelay_le_cap _ _ _
    exact Nat.le_trans (Nat.add_le_add capped (jitterChoices_mono capped))
      bounded

end BackoffPolicy

/--
The base doubled for each failure after the first one, up to a cap, in exact
numbers.
-/
def doubledDelay (base cap failures : Nat) : Nat :=
  min (base * Nat.pow 2 (max failures 1 - 1)) cap

/-- A saturated product differs from the exact one only beyond the cap. -/
theorem min_saturate_eq
    {cap : Nat}
    (base exponent : Nat)
    (counted : cap ≤ maxWord) :
    min (saturate (base * saturatingPower exponent)) cap =
      min (base * Nat.pow 2 exponent) cap := by
  have below (product : Nat) : min (saturate product) cap = min product cap := by
    rw [saturate, Nat.min_assoc, Nat.min_eq_right counted]
  rw [below]
  by_cases small : exponent < 64
  · rw [saturatingPower, if_pos small]
  · rw [saturatingPower_of_large (Nat.le_of_not_lt small)]
    cases base with
    | zero =>
        rw [Nat.zero_mul, Nat.zero_mul]
    | succ base =>
        have power : maxWord ≤ Nat.pow 2 exponent :=
          Nat.le_trans (by decide : maxWord ≤ 2 ^ 64)
            (Nat.pow_le_pow_right (by decide) (Nat.le_of_not_lt small))
        have beyond {factor : Nat} (large : maxWord ≤ factor) :
            cap ≤ (base + 1) * factor :=
          Nat.le_trans counted
            (Nat.le_trans large (Nat.le_mul_of_pos_left _ base.succ_pos))
        rw [Nat.min_eq_right (beyond (Nat.le_refl _)),
          Nat.min_eq_right (beyond power)]

private theorem doubledDelay_le_cap (base cap failures : Nat) :
    doubledDelay base cap failures ≤ cap :=
  Nat.min_le_right _ _

/-- With a positive base within its cap, every delay is positive. -/
theorem doubledDelay_pos
    {base cap : Nat}
    (positive : 0 < base)
    (ordered : base ≤ cap)
    (failures : Nat) :
    0 < doubledDelay base cap failures :=
  Nat.lt_min.mpr
    ⟨Nat.mul_pos positive (Nat.pow_pos (by decide)),
      Nat.lt_of_lt_of_le positive ordered⟩

namespace BackoffPolicy

variable {base cap : Nat}

/-- Saturation does not show: the least delay is the exact one. -/
theorem leastDelay_exponential
    (counted : cap ≤ maxWord)
    (failures : Nat) :
    (exponential base cap).leastDelay failures =
      doubledDelay base cap failures := by
  have notFirst : max failures 1 ≠ 0 := by
    omega
  rw [leastDelay, cappedDelay, if_neg notFirst, doubledDelay,
    min_saturate_eq base _ counted]

/-- A doubling delay is the exact one with a jitter below a tenth of it. -/
theorem delay_exponential
    (counted : cap ≤ maxWord)
    (failures jitter : Nat) :
    (exponential base cap).delay failures jitter =
      doubledDelay base cap failures +
        jitter % max 1 (doubledDelay base cap failures / 10) := by
  rw [delay, choices, jitterChoices, leastDelay_exponential counted]

/-- Jitter lengthens no delay by a tenth of the cap. -/
theorem delay_exponential_lt
    (positive : 0 < base)
    (ordered : base ≤ cap)
    (counted : cap ≤ maxWord)
    (failures jitter : Nat) :
    10 * (exponential base cap).delay failures jitter < 11 * cap := by
  rw [delay_exponential counted]
  have least := doubledDelay_pos positive ordered failures
  have most := doubledDelay_le_cap base cap failures
  have drawn :
      jitter % max 1 (doubledDelay base cap failures / 10) <
        max 1 (doubledDelay base cap failures / 10) :=
    Nat.mod_lt _ (Nat.lt_of_lt_of_le Nat.one_pos (Nat.le_max_left _ _))
  change (_ : Nat) < _
  omega

end BackoffPolicy

/-- More failures never make the delay shorter. -/
theorem doubledDelay_mono
    {cap failures more : Nat}
    (base : Nat)
    (counted : cap ≤ maxWord)
    (grows : failures ≤ more) :
    doubledDelay base cap failures ≤ doubledDelay base cap more := by
  rw [← BackoffPolicy.leastDelay_exponential counted,
    ← BackoffPolicy.leastDelay_exponential counted]
  exact BackoffPolicy.leastDelay_mono _ grows

/-- After sixty-five failures the delay is the cap. -/
theorem doubledDelay_of_late
    {base cap failures : Nat}
    (positive : 0 < base)
    (counted : cap ≤ maxWord)
    (late : 65 ≤ failures) :
    doubledDelay base cap failures = cap := by
  rw [← BackoffPolicy.leastDelay_exponential counted]
  exact cappedDelay_of_late (by omega) (Nat.ne_of_gt positive) counted

end EventRelay.Timing
