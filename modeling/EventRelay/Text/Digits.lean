namespace EventRelay.Text

/-!
# Digits

Reading and writing whole numbers in bases ten and sixteen.
-/

/-- The value of a decimal digit. -/
def digit? (character : Char) : Option Nat :=
  if '0' ≤ character ∧ character ≤ '9' then
    some (character.toNat - '0'.toNat)
  else
    none

/-- The value of a hexadecimal digit, in either case. -/
def hexDigit? (character : Char) : Option Nat :=
  if '0' ≤ character ∧ character ≤ '9' then
    some (character.toNat - '0'.toNat)
  else if 'a' ≤ character ∧ character ≤ 'f' then
    some (character.toNat - 'a'.toNat + 10)
  else if 'A' ≤ character ∧ character ≤ 'F' then
    some (character.toNat - 'A'.toNat + 10)
  else
    none

/-- The number that digits of a base stand for, most significant first. -/
def ofDigits (base : Nat) (digits : List Nat) : Nat :=
  digits.foldl (fun value digit => value * base + digit) 0

/-- Reads one or more decimal digits and nothing else. -/
def decimal? (text : List Char) : Option Nat :=
  if text.isEmpty then
    none
  else
    (text.mapM digit?).map (ofDigits 10)

/-- A whole number that fits 64 bits with a sign. -/
def bounded64? (value : Int) : Option Int :=
  if -9223372036854775808 ≤ value ∧ value < 9223372036854775808 then
    some value
  else
    none

/-- Reads decimal digits after an optional sign, as a number of 64 bits. -/
def integer? (text : List Char) : Option Int :=
  match text with
  | '-' :: digits =>
      (decimal? digits).bind fun value => bounded64? (-(value : Int))
  | '+' :: digits =>
      (decimal? digits).bind fun value => bounded64? value
  | digits =>
      (decimal? digits).bind fun value => bounded64? value

/-- The character of a hexadecimal digit in lower case. -/
def lowerHexDigit (value : Nat) : Char :=
  if value < 10 then
    Char.ofNat ('0'.toNat + value)
  else
    Char.ofNat ('a'.toNat + (value - 10))

/-- The character of a hexadecimal digit in upper case. -/
def upperHexDigit (value : Nat) : Char :=
  if value < 10 then
    Char.ofNat ('0'.toNat + value)
  else
    Char.ofNat ('A'.toNat + (value - 10))

/-- Decimal digits of a number, at least one. -/
def decimalText (value : Nat) : List Char :=
  Nat.toDigits 10 value

/-- Hexadecimal digits of a number in lower case, at least one. -/
def lowerHexText (value : Nat) : List Char :=
  Nat.toDigits 16 value

/-- Every byte as two lower-case hexadecimal digits. -/
def hexOfBytes (bytes : List UInt8) : List Char :=
  bytes.flatMap fun byte =>
    [lowerHexDigit (byte.toNat / 16), lowerHexDigit (byte.toNat % 16)]

/-- Reads pairs of hexadecimal digits. -/
def bytesOfHex? : List Char → Option (List UInt8)
  | [] =>
      some []
  | [_] =>
      none
  | high :: low :: rest => do
      let high ← hexDigit? high
      let low ← hexDigit? low
      let bytes ← bytesOfHex? rest
      some ((high * 16 + low).toUInt8 :: bytes)

end EventRelay.Text
