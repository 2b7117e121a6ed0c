import EventRelay.Url.Basic
import EventRelay.Url.Domain

namespace EventRelay

/-!
# Reading hosts

The host of a web address is a domain name, unless it ends in a number: then
it is an IPv4 address in one of several notations.  A host in brackets is an
IPv6 address.  Hosts of unknown schemes are kept as they are.
-/

/-- Why a text is no URL. -/
inductive UrlError where
  | relativeWithoutBase
  | emptyHost
  | invalidNumber
  | invalidIpv4
  | invalidIpv6
  | invalidInternationalName
  | invalidDomainCharacter
  deriving Repr, DecidableEq

namespace UrlError

/-- The text of the error. -/
def message : UrlError → String
  | .relativeWithoutBase =>
      "relative URL without a base"
  | .emptyHost =>
      "empty host"
  | .invalidNumber =>
      "invalid port number"
  | .invalidIpv4 =>
      "invalid IPv4 address"
  | .invalidIpv6 =>
      "invalid IPv6 address"
  | .invalidInternationalName =>
      "invalid international domain name"
  | .invalidDomainCharacter =>
      "invalid domain character"

end UrlError

namespace Host

/-- The value of digits of a base, if all are. -/
def digitsValue? (base : Nat) (text : List Char) : Option Nat := do
  let digits ← text.mapM Text.hexDigit?
  if digits.all (· < base) then
    some (Text.ofDigits base digits)
  else
    none

/--
Reads a number of an IPv4 address: hexadecimal after `0x`, octal after another
zero, decimal otherwise.
-/
def ipv4Number? (text : List Char) : Option Nat :=
  match text with
  | [] =>
      none
  | '0' :: 'x' :: digits =>
      digitsValue? 16 digits
  | '0' :: 'X' :: digits =>
      digitsValue? 16 digits
  | '0' :: digit :: digits =>
      digitsValue? 8 (digit :: digits)
  | _ =>
      digitsValue? 10 text

/-- The parts between the points, without an empty one at the end. -/
def numberParts (text : List Char) : List (List Char) :=
  let parts := Text.splitWhere (· == '.') text
  match parts.getLast? with
  | some [] =>
      parts.dropLast
  | _ =>
      parts

/-- Whether the last part of a name is a number. -/
def endsInNumber (text : List Char) : Bool :=
  match (numberParts text).getLast? with
  | none =>
      false
  | some last =>
      (!last.isEmpty && last.all fun character =>
        (Text.digit? character).isSome) ||
        (ipv4Number? last).isSome

/-- The address of numbers of which the last fills the remaining bytes. -/
def ipv4OfNumbers? (numbers : List Nat) : Option Nat :=
  match numbers.reverse with
  | [] =>
      none
  | last :: before =>
      if 3 < before.length ∨ before.any (255 < ·) ∨
          Nat.pow 2 (8 * (4 - before.length)) ≤ last then
        none
      else
        some (before.reverse.foldl (fun value number => value * 256 + number) 0 *
          Nat.pow 2 (8 * (4 - before.length)) + last)

/-- Reads an IPv4 address. -/
def ipv4? (text : List Char) : Option Nat :=
  ((numberParts text).mapM ipv4Number?).bind ipv4OfNumbers?

/-- Reads a host in brackets. -/
def bracketed (text : List Char) : Except UrlError Host :=
  if text.getLast? = some ']' then
    match Net.ipv6? text.dropLast with
    | some groups =>
        .ok (.ipv6 groups)
    | none =>
        .error .invalidIpv6
  else
    .error .invalidIpv6

/-- Reads the host of a known scheme. -/
def ofDomain (text : List Char) : Except UrlError Host :=
  match text with
  | '[' :: rest =>
      bracketed rest
  | _ =>
      match Domain.toAscii? (Text.Percent.decode text) with
      | none =>
          .error .invalidInternationalName
      | some [] =>
          .error .emptyHost
      | some domain =>
          if endsInNumber domain then
            match ipv4? domain with
            | some value =>
                .ok (.ipv4 value)
            | none =>
                .error .invalidIpv4
          else
            .ok (.name domain)

/-- Whether a character must not occur in the host of an unknown scheme. -/
def isForbidden (character : Char) : Bool :=
  ['\x00', '\t', '\n', '\r', ' ', '#', '/', ':', '<', '>', '?', '@', '[', '\\',
    ']', '^', '|'].contains character

/-- Reads the host of an unknown scheme. -/
def ofText (text : List Char) : Except UrlError Host :=
  match text with
  | '[' :: rest =>
      bracketed rest
  | _ =>
      if text.any isForbidden then
        .error .invalidDomainCharacter
      else
        .ok (.name (Text.Percent.encode (fun _ => false) text))

end Host

end EventRelay
