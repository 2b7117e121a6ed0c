namespace EventRelay.Json

/-!
# Binary floating point of 64 bits

Finite numbers only, as a sign, a mantissa below `2 ^ 53` and an exponent of
two.  Every operation is exact arithmetic followed by one rounding to the
nearest number, ties to the even mantissa.
-/

/-- The finite number `mantissa * 2 ^ exponent`, negated if `negative`. -/
structure Binary64 where
  negative : Bool
  mantissa : Nat
  exponent : Int
  deriving Repr, DecidableEq

namespace Binary64

/-- The least exponent. -/
def minExponent : Int :=
  -1074

/-- The greatest exponent. -/
def maxExponent : Int :=
  971

/-- The least mantissa of 53 bits. -/
def minNormal : Nat :=
  4503599627370496

/-- Zero with a sign. -/
def zero (negative : Bool) : Binary64 :=
  ⟨negative, 0, minExponent⟩

/-- Whether the number is zero of either sign. -/
def isZero (number : Binary64) : Bool :=
  number.mantissa == 0

/-- The quotient of two positive numbers, rounded to a whole, ties to even. -/
def roundQuotient (numerator denominator : Nat) : Nat :=
  let quotient := numerator / denominator
  let remainder := numerator % denominator
  if denominator < 2 * remainder then
    quotient + 1
  else if 2 * remainder = denominator then
    quotient + quotient % 2
  else
    quotient

/-- The quotient `numerator / (denominator * 2 ^ exponent)`, rounded. -/
def roundScaled (numerator denominator : Nat) (exponent : Int) : Nat :=
  if 0 ≤ exponent then
    roundQuotient numerator (denominator * Nat.pow 2 exponent.toNat)
  else
    roundQuotient (numerator * Nat.pow 2 (-exponent).toNat) denominator

/-- The quotient `numerator / (denominator * 2 ^ exponent)`, rounded down. -/
def floorScaled (numerator denominator : Nat) (exponent : Int) : Nat :=
  if 0 ≤ exponent then
    numerator / (denominator * Nat.pow 2 exponent.toNat)
  else
    numerator * Nat.pow 2 (-exponent).toNat / denominator

/-- The exponent at which a positive quotient has a mantissa of 53 bits. -/
def fittingExponent (numerator denominator : Nat) : Int :=
  let estimate : Int := numerator.log2 - denominator.log2 - 52
  let chosen :=
    if floorScaled numerator denominator estimate < minNormal then
      estimate - 1
    else
      estimate
  max chosen minExponent

/-- The nearest number to a quotient; `none` beyond the greatest number. -/
def ofQuotient? (negative : Bool) (numerator denominator : Nat) :
    Option Binary64 :=
  if numerator = 0 then
    some (zero negative)
  else
    let exponent := fittingExponent numerator denominator
    let rounded := roundScaled numerator denominator exponent
    let (mantissa, exponent) :=
      if rounded = 2 * minNormal then
        (minNormal, exponent + 1)
      else
        (rounded, exponent)
    if maxExponent < exponent then
      none
    else if mantissa = 0 then
      some (zero negative)
    else
      some ⟨negative, mantissa, exponent⟩

/-- The magnitude as a quotient of whole numbers. -/
def quotient (number : Binary64) : Nat × Nat :=
  if 0 ≤ number.exponent then
    (number.mantissa * Nat.pow 2 number.exponent.toNat, 1)
  else
    (number.mantissa, Nat.pow 2 (-number.exponent).toNat)

/-- The nearest number to a whole number of at most 64 bits. -/
def ofWord (negative : Bool) (value : Nat) : Binary64 :=
  (ofQuotient? negative value 1).getD (zero negative)

/-- The product, with the sign of the first factor. -/
def mul? (first second : Binary64) : Option Binary64 :=
  let (firstTop, firstBottom) := first.quotient
  let (secondTop, secondBottom) := second.quotient
  ofQuotient? first.negative (firstTop * secondTop) (firstBottom * secondBottom)

/-- The quotient, with the sign of the dividend. -/
def div (dividend divisor : Binary64) : Binary64 :=
  let (dividendTop, dividendBottom) := dividend.quotient
  let (divisorTop, divisorBottom) := divisor.quotient
  (ofQuotient? dividend.negative (dividendTop * divisorBottom)
    (dividendBottom * divisorTop)).getD (zero dividend.negative)

/-- The nearest number to a power of ten. -/
def powerOfTen (exponent : Nat) : Binary64 :=
  (ofQuotient? false (Nat.pow 10 exponent) 1).getD (zero false)

/-- The greatest power of ten that is a number. -/
def maxPower : Nat :=
  308

/--
Divides by a power of ten, first by the greatest one as often as needed. After
a few such divisions every number is zero.
-/
def divPower : Nat → Binary64 → Nat → Binary64
  | 0, number, _ =>
      zero number.negative
  | steps + 1, number, exponent =>
      if exponent ≤ maxPower then
        number.div (powerOfTen exponent)
      else if number.isZero then
        number
      else
        divPower steps (number.div (powerOfTen maxPower)) (exponent - maxPower)

/-- Scales by a power of ten; `none` if the result is too large. -/
def scale? (number : Binary64) (exponent : Int) : Option Binary64 :=
  if 0 ≤ exponent then
    if exponent.toNat ≤ maxPower then
      number.mul? (powerOfTen exponent.toNat)
    else if number.isZero then
      some number
    else
      none
  else
    some (divPower 5 number (-exponent).toNat)

/-- A decimal number: digits without trailing zeros, and a power of ten. -/
structure Digits where
  digits : Nat
  power : Int
  deriving Repr, DecidableEq

/--
The numbers that round to a given one: the quotients from `low` to `high` over
`scale`, ends included if `closed`, around `middle`.
-/
structure Interval where
  low : Nat
  middle : Nat
  high : Nat
  scale : Nat
  closed : Bool

/-- The quotients that round to a positive number. -/
def interval (number : Binary64) : Interval :=
  let (top, bottom) := number.quotient
  let unit := Nat.pow 2 number.exponent.toNat
  let narrow := number.mantissa = minNormal ∧ minExponent < number.exponent
  { low := 4 * top - (if narrow then unit else 2 * unit)
    middle := 4 * top
    high := 4 * top + 2 * unit
    scale := 4 * bottom
    closed := number.mantissa % 2 = 0 }

/-- Whether `digits * 10 ^ power` lies in an interval. -/
def Interval.holds (interval : Interval) (digits : Nat) (power : Int) : Bool :=
  let top := if 0 ≤ power then digits * Nat.pow 10 power.toNat else digits
  let bottom := if 0 ≤ power then 1 else Nat.pow 10 (-power).toNat
  let value := top * interval.scale
  if interval.closed then
    interval.low * bottom ≤ value && value ≤ interval.high * bottom
  else
    interval.low * bottom < value && value < interval.high * bottom

/-- The greatest whole multiple of `10 ^ power` not above the middle. -/
def Interval.floorAt (interval : Interval) (power : Int) : Nat :=
  if 0 ≤ power then
    interval.middle / (interval.scale * Nat.pow 10 power.toNat)
  else
    interval.middle * Nat.pow 10 (-power).toNat / interval.scale

/-- Twice the middle, compared with the midpoint above a multiple. -/
def Interval.isNearerAbove
    (interval : Interval)
    (digits : Nat)
    (power : Int) : Bool :=
  let top := if 0 ≤ power then Nat.pow 10 power.toNat else 1
  let bottom := if 0 ≤ power then 1 else Nat.pow 10 (-power).toNat
  let twice := 2 * interval.middle * bottom
  let midpoint := (2 * digits + 1) * top * interval.scale
  midpoint < twice || (midpoint == twice && digits % 2 == 1)

/-- The nearest multiple of `10 ^ power` in an interval, if there is one. -/
def Interval.multiple? (interval : Interval) (power : Int) : Option Nat :=
  let below := interval.floorAt power
  let holdsBelow := interval.holds below power
  let holdsAbove := interval.holds (below + 1) power
  if holdsBelow && holdsAbove then
    some (if interval.isNearerAbove below power then below + 1 else below)
  else if holdsBelow then
    some below
  else if holdsAbove then
    some (below + 1)
  else
    none

/--
The least power of ten above the middle of an interval, given that power or
the one below it.
-/
def Interval.magnitude (interval : Interval) (guess : Int) : Int :=
  if interval.floorAt guess = 0 then
    guess
  else
    guess + 1

/-- Removes trailing zeros. -/
def stripZeros : Nat → Nat → Int → Digits
  | 0, digits, power =>
      ⟨digits, power⟩
  | steps + 1, digits, power =>
      if digits % 10 = 0 ∧ digits ≠ 0 then
        stripZeros steps (digits / 10) (power + 1)
      else
        ⟨digits, power⟩

/-- The first multiple found among growing numbers of digits. -/
def Interval.shortest (interval : Interval) (magnitude : Int) :
    Nat → Nat → Digits
  | 0, count =>
      ⟨interval.floorAt (magnitude - count), magnitude - count⟩
  | more + 1, count =>
      match interval.multiple? (magnitude - count) with
      | some digits =>
          stripZeros 20 digits (magnitude - count)
      | none =>
          interval.shortest magnitude more (count + 1)

/-- The number of decimal digits of a whole number. -/
def digitCount (value : Nat) : Nat :=
  (Nat.toDigits 10 value).length

/-- The least power of ten above a positive quotient, or the one below it. -/
def guessMagnitude (top bottom : Nat) : Int :=
  (digitCount top : Int) - digitCount bottom

/--
The fewest digits that read back as a positive number, the nearest if several
do.
-/
def shortestDigits (number : Binary64) : Digits :=
  let interval := number.interval
  let guess := guessMagnitude interval.middle interval.scale
  interval.shortest (interval.magnitude guess) 17 1

end Binary64

end EventRelay.Json
