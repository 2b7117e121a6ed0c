import EventRelay.Text.Digits
import EventRelay.Text.Split

namespace EventRelay.Timing

/-!
# Durations

Durations are whole numbers of milliseconds.
-/

/-- A span of time in milliseconds. -/
abbrev Milliseconds := Nat

/-- The largest number that fits in 64 bits. -/
def maxWord : Nat :=
  18446744073709551615

/-- The duration of a number of seconds. -/
def ofSeconds (seconds : Nat) : Milliseconds :=
  seconds * 1000

/-- Exactly three decimal digits of a number below one thousand. -/
def threeDigits (value : Nat) : List Char :=
  [Char.ofNat ('0'.toNat + value / 100 % 10),
    Char.ofNat ('0'.toNat + value / 10 % 10),
    Char.ofNat ('0'.toNat + value % 10)]

/-- A fraction of a second without trailing zeros, empty if there is none. -/
def fractionText (milliseconds : Nat) : List Char :=
  match Text.trimEndWhere (· == '0') (threeDigits milliseconds) with
  | [] =>
      []
  | digits =>
      '.' :: digits

/-- The text of a duration in its largest unit, of seconds and below. -/
def durationText (duration : Milliseconds) : String :=
  if duration = 0 then
    "0ns"
  else if duration < 1000 then
    s!"{duration}ms"
  else
    String.ofList
      (Text.decimalText (duration / 1000) ++
        fractionText (duration % 1000) ++ ['s'])

end EventRelay.Timing
