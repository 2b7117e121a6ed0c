namespace EventRelay.Punycode

/-!
# Punycode

Labels of other scripts written in ASCII.  The ASCII characters of a label
come first; the others are inserted by variable-length numbers in base 36,
whose digit thresholds adapt.
-/

/-- The base of the digits. -/
def base : Nat :=
  36

/-- The least character that is not ASCII. -/
def firstCode : Nat :=
  0x80

/-- The bias before the first number. -/
def initialBias : Nat :=
  72

/-- The threshold of the digit at a position, a multiple of the base. -/
def threshold (position bias : Nat) : Nat :=
  max 1 (min 26 (position - bias))

/-- The character of a digit. -/
def digitChar (digit : Nat) : Char :=
  if digit < 26 then
    Char.ofNat ('a'.toNat + digit)
  else
    Char.ofNat ('0'.toNat + (digit - 26))

/-- The digit of a character. -/
def digit? (character : Char) : Option Nat :=
  if 'a' ≤ character ∧ character ≤ 'z' then
    some (character.toNat - 'a'.toNat)
  else if 'A' ≤ character ∧ character ≤ 'Z' then
    some (character.toNat - 'A'.toNat)
  else if '0' ≤ character ∧ character ≤ '9' then
    some (character.toNat - '0'.toNat + 26)
  else
    none

/-- Divides a difference until it is small, counting the base each time. -/
def reduce (delta counted : Nat) : Nat × Nat :=
  if 455 < delta then
    reduce (delta / 35) (counted + base)
  else
    (delta, counted)
termination_by delta
decreasing_by omega

/-- The bias after a number. -/
def adapt (delta count : Nat) (isFirst : Bool) : Nat :=
  let damped := if isFirst then delta / 700 else delta / 2
  let (delta, counted) := reduce (damped + damped / count) 0
  counted + 36 * delta / (delta + 38)

/-- The digits of a number from a position on. -/
def numberDigits (bias position : Nat) (value : Nat) : List Char :=
  let least := threshold position bias
  if value < least then
    [digitChar value]
  else
    digitChar (least + (value - least) % (base - least)) ::
      numberDigits bias (position + base) ((value - least) / (base - least))
termination_by value
decreasing_by
  have positive : 1 ≤ threshold position bias := Nat.le_max_left 1 _
  exact Nat.lt_of_le_of_lt (Nat.div_le_self _ _) (by omega)

/-- The state of an encoder between two characters of a label. -/
structure Encoder where
  /-- The character whose places are written in this pass. -/
  code : Nat
  delta : Nat
  bias : Nat
  handled : Nat
  output : List Char

/-- Passes over a label, writing the places of one character. -/
def writePass (basic : Nat) (encoder : Encoder) (next : Nat) : Encoder :=
  if next < encoder.code then
    { encoder with delta := encoder.delta + 1 }
  else if next = encoder.code then
    { encoder with
      delta := 0
      bias :=
        adapt encoder.delta (encoder.handled + 1) (encoder.handled == basic)
      handled := encoder.handled + 1
      output :=
        encoder.output ++ numberDigits encoder.bias base encoder.delta }
  else
    encoder

/-- Writes all places of one character; the next one is at least one above. -/
def writeCode
    (basic : Nat)
    (label : List Nat)
    (encoder : Encoder)
    (code : Nat) : Encoder :=
  let raised :=
    { encoder with
      delta :=
        encoder.delta + (code - encoder.code) * (encoder.handled + 1)
      code := code }
  let passed := label.foldl (writePass basic) raised
  { passed with delta := passed.delta + 1, code := code + 1 }

/-- Puts a number in order among others, once. -/
def insertOnce (value : Nat) : List Nat → List Nat
  | [] =>
      [value]
  | other :: rest =>
      if value = other then
        other :: rest
      else if value < other then
        value :: other :: rest
      else
        other :: insertOnce value rest

/-- The written form of a label. -/
def encode (label : List Char) : List Char :=
  let codes := label.map Char.toNat
  let basic := label.filter (·.toNat < firstCode)
  let others := (codes.filter (firstCode ≤ ·)).foldr insertOnce []
  let opening := if basic.isEmpty then [] else basic ++ ['-']
  (others.foldl (writeCode basic.length codes)
    ⟨firstCode, 0, initialBias, basic.length, opening⟩).output

/--
Reads the digits of a number from a position on, each with its weight, and
returns the number with what follows it.
-/
def readNumber? (bias position weight value : Nat) :
    List Char → Option (Nat × List Char)
  | [] =>
      none
  | character :: rest => do
      let digit ← digit? character
      let value := value + digit * weight
      if 4294967296 ≤ value then
        none
      else
        let least := threshold position bias
        if digit < least then
          some (value, rest)
        else
          readNumber? bias (position + base) (weight * (base - least)) value rest

/-- Inserts an item at a place. -/
def insertAt (place : Nat) (item : α) (items : List α) : List α :=
  items.take place ++ item :: items.drop place

/--
Inserts the characters that the written numbers stand for.  Every number uses
up a character.
-/
def readCodes? : Nat → Nat → Nat → Nat → List Char → List Char →
    Option (List Char)
  | _, _, _, _, label, [] =>
      some label
  | 0, _, _, _, _, _ :: _ =>
      none
  | steps + 1, code, place, bias, label, written => do
      let (delta, rest) ← readNumber? bias base 1 0 written
      let count := label.length + 1
      let code := code + (place + delta) / count
      if code.isValidChar then
        readCodes? steps code ((place + delta) % count + 1)
          (adapt delta count (place == 0))
          (insertAt ((place + delta) % count) (Char.ofNat code) label) rest
      else
        none

/-- The label of a written form. -/
def decode? (written : List Char) : Option (List Char) :=
  if written.any (firstCode ≤ ·.toNat) then
    none
  else
    let (numbers, opening) := written.reverse.span (· != '-')
    let basic := (opening.drop 1).reverse
    readCodes? written.length firstCode 0 initialBias basic numbers.reverse

end EventRelay.Punycode
