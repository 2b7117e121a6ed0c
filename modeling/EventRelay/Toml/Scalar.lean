import EventRelay.Config.Datum
import EventRelay.Json.Binary64
import EventRelay.Toml.Quoted

namespace EventRelay.Toml

/-!
# Numbers, dates and truth values

Whole numbers have 64 bits with a sign.  Of numbers with a fraction and of
dates only the form matters, because no setting takes one.
-/

open Config (Datum)

/-- The digits of a base at the front, in groups joined by underscores. -/
def takeGrouped (base : Nat) : List Char → List Nat × List Char
  | [] =>
      ([], [])
  | '_' :: character :: rest =>
      match Text.hexDigit? character with
      | some digit =>
          if digit < base then
            let (digits, rest) := takeGrouped base rest
            (digit :: digits, rest)
          else
            ([], '_' :: character :: rest)
      | none =>
          ([], '_' :: character :: rest)
  | character :: rest =>
      match Text.hexDigit? character with
      | some digit =>
          if digit < base then
            let (digits, rest) := takeGrouped base rest
            (digit :: digits, rest)
          else
            ([], character :: rest)
      | none =>
          ([], character :: rest)

/-- Takes one or more digits of a base; the first is no underscore. -/
def takeGrouped? (base : Nat) (text : List Char) : Option (List Nat × List Char) :=
  match text with
  | '_' :: _ =>
      none
  | _ =>
      match takeGrouped base text with
      | ([], _) =>
          none
      | taken =>
          some taken

/-- Takes a sign, if there is one; returns whether it is a minus. -/
def takeSign : List Char → Bool × List Char
  | '+' :: rest =>
      (false, rest)
  | '-' :: rest =>
      (true, rest)
  | text =>
      (false, text)

/-- Takes decimal digits without leading zeros. -/
def takeDecimal? (text : List Char) : Option (List Nat × List Char) :=
  match text with
  | '0' :: rest =>
      some ([0], rest)
  | _ =>
      takeGrouped? 10 text

/-- A whole number, if it has 64 bits with a sign. -/
def whole? (negative : Bool) (magnitude : Nat) : Option Datum :=
  if negative ∧ magnitude ≤ 9223372036854775808 then
    some (.integer (-(magnitude : Int)))
  else if !negative ∧ magnitude < 9223372036854775808 then
    some (.integer magnitude)
  else
    none

/-- Takes a whole number in a base other than ten. -/
def takeBased? (base : Nat) (text : List Char) : Option (Datum × List Char) := do
  let (digits, rest) ← takeGrouped? base text
  let datum ← whole? false (Text.ofDigits base digits)
  some (datum, rest)

/-- Takes a whole number. -/
def takeInteger? (text : List Char) : Option (Datum × List Char) :=
  match text with
  | '0' :: 'x' :: rest =>
      takeBased? 16 rest
  | '0' :: 'o' :: rest =>
      takeBased? 8 rest
  | '0' :: 'b' :: rest =>
      takeBased? 2 rest
  | _ => do
      let (negative, rest) := takeSign text
      let (digits, rest) ← takeDecimal? rest
      let datum ← whole? negative (Text.ofDigits 10 digits)
      some (datum, rest)

/-- Takes a point and the digits after it. -/
def takeFraction? : List Char → Option (List Nat × List Char)
  | '.' :: rest =>
      takeGrouped? 10 rest
  | _ =>
      none

/-- Takes the mark of an exponent, its sign and its digits. -/
def takeExponent? (text : List Char) : Option (Int × List Char) :=
  match text with
  | mark :: rest =>
      if mark = 'e' ∨ mark = 'E' then do
        let (negative, rest) := takeSign rest
        let (digits, rest) ← takeGrouped? 10 rest
        let magnitude : Int := Text.ofDigits 10 digits
        some (if negative then -magnitude else magnitude, rest)
      else
        none
  | [] =>
      none

/-- Whether a number is too large for floating point of 64 bits. -/
def isTooLarge (whole fraction : List Nat) (exponent : Int) : Bool :=
  let digits := (whole ++ fraction).dropWhile (· == 0)
  let power := exponent - fraction.length
  let magnitude := digits.length + power
  if digits.isEmpty ∨ magnitude < 300 then
    false
  else if 320 < magnitude then
    true
  else
    let value := Text.ofDigits 10 digits
    let scale := Nat.pow 10 power.natAbs
    if 0 ≤ power then
      (Json.Binary64.ofQuotient? false (value * scale) 1).isNone
    else
      (Json.Binary64.ofQuotient? false value scale).isNone

/-- Takes infinity or the number that is none, with an optional sign. -/
def takeSpecial? (text : List Char) : Option (Datum × List Char) :=
  let rest := (takeSign text).2
  match afterWord? ['i', 'n', 'f'] rest with
  | some after =>
      some (.decimal, after)
  | none =>
      (afterWord? ['n', 'a', 'n'] rest).map (.decimal, ·)

/-- Takes a number with a fraction or an exponent. -/
def takeFloat? (text : List Char) : Option (Datum × List Char) := do
  let (negative, rest) := takeSign text
  let (whole, rest) ← takeDecimal? rest
  let (fraction, exponent, rest) ←
    match takeFraction? rest with
    | some (fraction, rest) =>
        match takeExponent? rest with
        | some (exponent, rest) =>
            some (fraction, exponent, rest)
        | none =>
            some (fraction, 0, rest)
    | none =>
        (takeExponent? rest).map fun (exponent, rest) => ([], exponent, rest)
  if !negative ∧ isTooLarge whole fraction exponent then
    none
  else
    some (.decimal, rest)

/-- The number of days of a month. -/
def daysOf (year month : Nat) : Nat :=
  if month = 2 then
    if year % 4 = 0 ∧ (year % 100 ≠ 0 ∨ year % 400 = 0) then 29 else 28
  else if month = 4 ∨ month = 6 ∨ month = 9 ∨ month = 11 then
    30
  else
    31

/-- Skips a date. -/
def skipDate? (text : List Char) : Option (List Char) := do
  let (year, rest) ← takeNumber? 4 text
  let rest ← expect? '-' rest
  let (month, rest) ← takeNumber? 2 rest
  let rest ← expect? '-' rest
  let (day, rest) ← takeNumber? 2 rest
  if 1 ≤ month ∧ month ≤ 12 ∧ 1 ≤ day ∧ day ≤ daysOf year month then
    some rest
  else
    none

/-- Skips the fraction of a second, if there is one. -/
def skipSecondFraction? (text : List Char) : Option (List Char) :=
  match text with
  | '.' :: digit :: rest =>
      if digit.isDigit then
        some (rest.dropWhile Char.isDigit)
      else
        none
  | ['.'] =>
      none
  | _ =>
      some text

/-- Skips a time of day. -/
def skipTime? (text : List Char) : Option (List Char) := do
  let (hour, rest) ← takeNumber? 2 text
  let rest ← expect? ':' rest
  let (minute, rest) ← takeNumber? 2 rest
  let rest ← expect? ':' rest
  let (second, rest) ← takeNumber? 2 rest
  if hour ≤ 23 ∧ minute ≤ 59 ∧ second ≤ 60 then
    skipSecondFraction? rest
  else
    none

/-- Skips the offset of a time, if there is one. -/
def skipOffset (text : List Char) : List Char :=
  match text with
  | [] =>
      []
  | mark :: rest =>
      if mark = 'Z' ∨ mark = 'z' then
        rest
      else if mark = '+' ∨ mark = '-' then
        let offset? : Option (List Char) := do
          let (hour, rest) ← takeNumber? 2 rest
          let rest ← expect? ':' rest
          let (minute, rest) ← takeNumber? 2 rest
          if hour ≤ 23 ∧ minute ≤ 59 then some rest else none
        offset?.getD text
      else
        text

/-- Skips what may follow a date: a time with an optional offset. -/
def skipTimeOfDate (text : List Char) : List Char :=
  match text with
  | [] =>
      []
  | mark :: rest =>
      if mark = 'T' ∨ mark = 't' ∨ mark = ' ' then
        match skipTime? rest with
        | some rest =>
            skipOffset rest
        | none =>
            text
      else
        text

/-- Takes a date, a time, or both. -/
def takeMoment? (text : List Char) : Option (Datum × List Char) :=
  match skipDate? text with
  | some rest =>
      some (.moment, skipTimeOfDate rest)
  | none =>
      (skipTime? text).map (.moment, ·)

/-- Takes a number or a date. -/
def takeNumeric? (text : List Char) : Option (Datum × List Char) :=
  (takeMoment? text).or
    ((takeSpecial? text).or ((takeFloat? text).or (takeInteger? text)))

/-- Takes a value that is no array and no table. -/
def takeScalar? (text : List Char) : Option (Datum × List Char) :=
  match text with
  | '"' :: _ =>
      (takeText? text).map fun (value, rest) => (.text value, rest)
  | '\'' :: _ =>
      (takeText? text).map fun (value, rest) => (.text value, rest)
  | 't' :: rest =>
      (afterWord? ['r', 'u', 'e'] rest).map (.boolean true, ·)
  | 'f' :: rest =>
      (afterWord? ['a', 'l', 's', 'e'] rest).map (.boolean false, ·)
  | _ =>
      takeNumeric? text

end EventRelay.Toml
