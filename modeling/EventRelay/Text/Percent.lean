import EventRelay.Text.Digits
import EventRelay.Text.Utf8

namespace EventRelay.Text.Percent

/-!
# Percent encoding

Bytes that may not stand in a text are written as a percent sign and two
hexadecimal digits.
-/

/-- A byte as a percent sign and two digits. -/
def encodeByte (byte : UInt8) : List Char :=
  ['%', upperHexDigit (byte.toNat / 16), upperHexDigit (byte.toNat % 16)]

/-- Whether a character is a control character or outside ASCII. -/
def isControl (character : Char) : Bool :=
  character.toNat < 0x20 || 0x7F ≤ character.toNat

/-- Encodes control characters, non-ASCII characters and those of a set. -/
def encode (encodes : Char → Bool) (text : List Char) : List Char :=
  text.flatMap fun character =>
    if isControl character || encodes character then
      (Utf8.encodeChar character).flatMap encodeByte
    else
      [character]

/-- The value of a byte that is a hexadecimal digit. -/
def hexByte? (byte : UInt8) : Option Nat :=
  if byte < 0x80 then
    hexDigit? (Char.ofNat byte.toNat)
  else
    none

/-- Decodes bytes; a percent sign without two digits stands for itself. -/
def decodeBytes : List UInt8 → List UInt8
  | [] =>
      []
  | byte :: high :: low :: rest =>
      if byte = 0x25 then
        match hexByte? high, hexByte? low with
        | some highValue, some lowValue =>
            (highValue * 16 + lowValue).toUInt8 :: decodeBytes rest
        | _, _ =>
            byte :: decodeBytes (high :: low :: rest)
      else
        byte :: decodeBytes (high :: low :: rest)
  | byte :: rest =>
      byte :: decodeBytes rest

/-- The bytes that a text stands for. -/
def decode (text : List Char) : List UInt8 :=
  decodeBytes (Utf8.encode text)

end EventRelay.Text.Percent
