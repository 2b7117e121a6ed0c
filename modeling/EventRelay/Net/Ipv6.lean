import EventRelay.Text.Digits
import EventRelay.Text.Split

namespace EventRelay.Net

/-!
# IPv6 addresses

An address is eight groups of sixteen bits.  One run of zero groups may be
written as two colons, and the last two groups as four decimal
numbers.
-/

/-- The groups of an address. -/
abbrev Groups := List Nat

/-- Reads a decimal number up to a bound. -/
def bounded? (bound : Nat) (text : List Char) : Option Nat := do
  let value ← Text.decimal? text
  if value ≤ bound then
    some value
  else
    none

/-- Reads a number from zero to 255 without leading zeros. -/
def octet? (text : List Char) : Option Nat :=
  match text with
  | '0' :: _ :: _ =>
      none
  | _ =>
      bounded? 255 text

/-- Reads four numbers separated by points. -/
def octets? (text : List Char) : Option (List Nat) :=
  match Text.splitWhere (· == '.') text with
  | [first, second, third, fourth] =>
      [first, second, third, fourth].mapM octet?
  | _ =>
      none

/-- Reads a group of one to four hexadecimal digits. -/
def group? (text : List Char) : Option Nat :=
  if text.isEmpty ∨ 4 < text.length then
    none
  else
    (text.mapM Text.hexDigit?).map (Text.ofDigits 16)

/-- Reads four decimal numbers as two groups. -/
def dottedGroups? (text : List Char) : Option Groups :=
  (octets? text).map fun octets =>
    match octets with
    | [first, second, third, fourth] =>
        [first * 256 + second, third * 256 + fourth]
    | _ =>
        []

/-- Reads groups between colons; the last part may be four numbers. -/
def groups? : List (List Char) → Option Groups
  | [] =>
      some []
  | [last] =>
      if last.contains '.' then
        dottedGroups? last
      else
        (group? last).map ([·])
  | part :: parts => do
      let group ← group? part
      let groups ← groups? parts
      some (group :: groups)

/-- Reads the groups of one side of two colons; a side may be empty. -/
def side? (text : List Char) : Option Groups :=
  if text.isEmpty then
    some []
  else
    groups? (Text.splitWhere (· == ':') text)

/-- The parts before and after the first two colons in a row. -/
def splitAbbreviation? : List Char → Option (List Char × List Char)
  | ':' :: ':' :: rest =>
      some ([], rest)
  | [] =>
      none
  | character :: rest =>
      (splitAbbreviation? rest).map fun (before, after) =>
        (character :: before, after)

/-- Reads an address. -/
def ipv6? (text : List Char) : Option Groups :=
  match splitAbbreviation? text with
  | none => do
      let groups ← side? text
      if groups.length = 8 then
        some groups
      else
        none
  | some (before, after) => do
      if before.contains '.' then
        none
      else
        let first ← side? before
        let last ← side? after
        let missing := 8 - (first.length + last.length)
        if first.length + last.length < 8 then
          some (first ++ List.replicate missing 0 ++ last)
        else
          none

/-- The length of the run of zeros at the start. -/
def leadingZeros (groups : Groups) : Nat :=
  (groups.takeWhile (· == 0)).length

/-- The start and length of the first longest run of zeros. -/
def longestZeros (position : Nat) : Groups → Nat × Nat
  | [] =>
      (position, 0)
  | group :: groups =>
      let here := leadingZeros (group :: groups)
      let (start, length) := longestZeros (position + 1) groups
      if length ≤ here then
        (position, here)
      else
        (start, length)

/-- Groups in hexadecimal, separated by colons. -/
def joinGroups (groups : Groups) : List Char :=
  [':'].intercalate (groups.map Text.lowerHexText)

/-- The shortest text of an address. -/
def ipv6Text (groups : Groups) : List Char :=
  let (start, length) := longestZeros 0 groups
  if length < 2 then
    joinGroups groups
  else
    joinGroups (groups.take start) ++ [':', ':'] ++
      joinGroups (groups.drop (start + length))

end EventRelay.Net
