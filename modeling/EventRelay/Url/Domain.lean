import EventRelay.Text.Split
import EventRelay.Text.Utf8
import EventRelay.Url.Folding
import EventRelay.Url.Punycode

namespace EventRelay.Domain

/-!
# Domain names

A domain name is brought to its usual form and written in ASCII: characters
that stand for others are replaced, ignored ones dropped, and labels in other
scripts are written in Punycode.

Of the mapping of international names only this part is here.  Letters and
their marks are not composed, so a name that is not in its composed form stays
as it is written.  Neither the rules for scripts that are written from right to
left, nor those for joiners and for marks at the start of a label, are checked;
joiners are always turned down.  Names in ASCII do not depend on any of this.
-/

/-- Whether a character must not occur in a domain name. -/
def isForbidden (character : Char) : Bool :=
  character.toNat ≤ 0x20 || character.toNat == 0x7F ||
    ['#', '%', '/', ':', '<', '>', '?', '@', '[', '\\', ']', '^', '|'].contains
      character

/-- Whether a character is dropped. -/
def isIgnored (value : Nat) : Bool :=
  value == 0xAD || value == 0x200B || value == 0x2060 || value == 0xFEFF ||
    (0xFE00 ≤ value && value ≤ 0xFE0F)

/--
Whether a character outside ASCII must not occur in a label: controls, blanks,
direction marks, private use, and code points for no character.
-/
def isDisallowed (value : Nat) : Bool :=
  (0x80 ≤ value && value ≤ 0xA0) || value == 0x1680 ||
    (0x2000 ≤ value && value ≤ 0x200F) ||
    (0x2024 ≤ value && value ≤ 0x2026) ||
    (0x2028 ≤ value && value ≤ 0x202F) ||
    (0x2488 ≤ value && value ≤ 0x249B) ||
    (0x205F ≤ value && value ≤ 0x206F) ||
    value == 0x3000 ||
    (0xE000 ≤ value && value ≤ 0xF8FF) ||
    (0xFDD0 ≤ value && value ≤ 0xFDEF) ||
    (0xFFF9 ≤ value && value ≤ 0xFFFF) ||
    0xE0000 ≤ value || 0xFFFE ≤ value % 0x10000

/-- Whether a character stands for the point between labels. -/
def isFullStop (value : Nat) : Bool :=
  value == 0x3002 || value == 0xFF0E || value == 0xFF61

/-- The characters that a character is mapped to. -/
def mapChar (character : Char) : List Char :=
  let value := character.toNat
  if isIgnored value then
    []
  else if isFullStop value then
    ['.']
  else
    folded character

/-- How a Punycode label starts. -/
def marker : List Char :=
  ['x', 'n', '-', '-']

/-- Whether a text is ASCII. -/
def isAscii (text : List Char) : Bool :=
  text.all (·.toNat < 0x80)

/-- Whether a label in another script is in its usual form. -/
def isMapped (label : List Char) : Bool :=
  label.flatMap mapChar == label

/-- Whether every character may occur in a label. -/
def isAllowed (label : List Char) : Bool :=
  label.all fun character => !isDisallowed character.toNat

/-- Whether a Punycode label stands for a label that needs it. -/
def isSoundPunycode (written : List Char) : Bool :=
  match Punycode.decode? written with
  | none =>
      false
  | some label =>
      !isAscii label && isAllowed label && isMapped label && Punycode.encode label == written

/-- The ASCII form of a label. -/
def asciiLabel? (label : List Char) : Option (List Char) :=
  if marker.isPrefixOf label then
    if isAscii label ∧ isSoundPunycode (label.drop marker.length) then
      some label
    else
      none
  else if isAscii label then
    some label
  else if isAllowed label then
    some (marker ++ Punycode.encode label)
  else
    none

/-- The ASCII form of a domain name. -/
def toAscii? (bytes : List UInt8) : Option (List Char) := do
  let text ← Text.Utf8.decode? bytes
  let mapped := text.flatMap mapChar
  let labels ← (Text.splitWhere (· == '.') mapped).mapM asciiLabel?
  let name := ['.'].intercalate labels
  if name.any isForbidden then
    none
  else
    some name

end EventRelay.Domain
