import EventRelay.Json.Binary64
import EventRelay.Text.Digits

namespace EventRelay.Json

/-!
# Numbers

Whole numbers of 64 bits are kept exactly.  All others are floating point,
computed in two steps: the first digits that fit in 64 bits become a
significand, which is then scaled by a power of ten.
-/

/-- A number of a document. -/
inductive Number where
  | whole (value : Int)
  | real (value : Binary64)
  deriving Repr, DecidableEq

/-- The least whole number kept exactly. -/
def minWhole : Int :=
  -9223372036854775808

/-- The greatest whole number kept exactly. -/
def maxWhole : Nat :=
  18446744073709551615

/-- The parts of a written number. -/
structure NumberText where
  negative : Bool
  /-- Digits before the point. -/
  whole : List Nat
  /-- Digits after the point; empty if there is no point. -/
  fraction : List Nat
  /-- Sign and digits of the exponent. -/
  exponent : Option (Bool × List Nat)
  deriving Repr, DecidableEq

/-- Appends digits to a significand while it fits, and returns the rest. -/
def accumulate (bound significand : Nat) : List Nat → Nat × List Nat
  | [] =>
      (significand, [])
  | digit :: digits =>
      if bound < significand * 10 + digit then
        (significand, digit :: digits)
      else
        accumulate bound (significand * 10 + digit) digits

namespace NumberText

/-- The greatest exponent that is read exactly. -/
def maxExponentText : Nat :=
  2147483647

/-- The significand and the power of ten it is scaled by, exponent aside. -/
def significand (text : NumberText) : Nat × Int :=
  let (whole, dropped) := accumulate maxWhole 0 text.whole
  let (significand, unread) := accumulate maxWhole whole text.fraction
  let taken := text.fraction.length - unread.length
  (significand, (dropped.length : Int) - (taken : Int))

/-- The floating-point number of a text; `none` if it is too large. -/
def real? (text : NumberText) : Option Binary64 :=
  let (significand, power) := text.significand
  let number := Binary64.ofWord text.negative significand
  match text.exponent with
  | none =>
      number.scale? power
  | some (negative, digits) =>
      let (exponent, unread) := accumulate maxExponentText 0 digits
      if !unread.isEmpty then
        if significand ≠ 0 ∧ !negative then
          none
        else
          some (Binary64.zero text.negative)
      else if negative then
        number.scale? (power - exponent)
      else
        number.scale? (power + exponent)

/-- The number of a text; `none` if it is too large. -/
def value? (text : NumberText) : Option Number :=
  let (whole, dropped) := accumulate maxWhole 0 text.whole
  if text.fraction.isEmpty ∧ text.exponent.isNone ∧ dropped.isEmpty then
    if !text.negative then
      some (.whole whole)
    else if whole = 0 ∨ 9223372036854775808 < whole then
      some (.real (Binary64.ofWord true whole))
    else
      some (.whole (-(whole : Int)))
  else
    text.real?.map .real

end NumberText

namespace Number

/-- Digits with a point after a number of them. -/
def pointed (digits : List Char) (before : Nat) : List Char :=
  digits.take before ++ '.' :: digits.drop before

/-- The sign and digits of an exponent. -/
def exponentText (exponent : Int) : List Char :=
  (if 0 ≤ exponent then '+' else '-') :: Text.decimalText exponent.natAbs

/--
The text of a positive number with given digits: plain if the first digit
stands between the fifth place after the point and the sixteenth before.
-/
def digitsText (digits : Binary64.Digits) : List Char :=
  let text := Text.decimalText digits.digits
  let point : Int := text.length + digits.power
  if 0 ≤ digits.power ∧ point ≤ 16 then
    text ++ List.replicate digits.power.toNat '0' ++ ['.', '0']
  else if 0 < point ∧ point ≤ 16 then
    pointed text point.toNat
  else if -5 < point ∧ point ≤ 0 then
    ['0', '.'] ++ List.replicate (-point).toNat '0' ++ text
  else
    let mantissa :=
      match text with
      | [_] =>
          text
      | _ =>
          pointed text 1
    mantissa ++ 'e' :: exponentText (point - 1)

/-- The text of a floating-point number. -/
def realText (value : Binary64) : List Char :=
  let magnitude :=
    if value.isZero then
      ['0', '.', '0']
    else
      digitsText value.shortestDigits
  if value.negative then
    '-' :: magnitude
  else
    magnitude

/-- The text of a whole number. -/
def wholeText (value : Int) : List Char :=
  if value < 0 then
    '-' :: Text.decimalText value.natAbs
  else
    Text.decimalText value.natAbs

/-- The text of a number. -/
def text : Number → List Char
  | .whole value =>
      wholeText value
  | .real value =>
      realText value

end Number

end EventRelay.Json
