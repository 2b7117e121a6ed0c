import EventRelay.Text.Blank
import EventRelay.Text.Digits

namespace EventRelay.Text.Quoted

/-!
# Quoted texts

A text between quotes, in which quotes, backslashes and hidden characters are
escaped.  Optional texts say whether they are there.
-/

/-- Whether a character is a mark that combines with the one before it. -/
def isCombining (character : Char) : Bool :=
  let value := character.toNat
  (0x300 ≤ value && value ≤ 0x36F) ||
    (0x1AB0 ≤ value && value ≤ 0x1AFF) ||
    (0x1DC0 ≤ value && value ≤ 0x1DFF) ||
    (0x20D0 ≤ value && value ≤ 0x20FF) ||
    (0xFE00 ≤ value && value ≤ 0xFE0F) ||
    (0xFE20 ≤ value && value ≤ 0xFE2F)

/--
Whether a character is a control character, a combining or invisible mark, a
separator other than the space, or for private use.
-/
def isHidden (character : Char) : Bool :=
  let value := character.toNat
  value < 0x20 ||
    (0x7F ≤ value && value < 0xA0) ||
    value == 0xAD ||
    (character != ' ' && isBlank character) ||
    (0x200B ≤ value && value ≤ 0x200F) ||
    (0x202A ≤ value && value ≤ 0x202E) ||
    (0x2060 ≤ value && value ≤ 0x206F) ||
    (0xE000 ≤ value && value ≤ 0xF8FF) ||
    value == 0xFEFF ||
    0xE0000 ≤ value ||
    isCombining character

/-- A character as it stands between quotes. -/
def escape (character : Char) : List Char :=
  if character = '"' then
    ['\\', '"']
  else if character = '\\' then
    ['\\', '\\']
  else if character = '\n' then
    ['\\', 'n']
  else if character = '\r' then
    ['\\', 'r']
  else if character = '\t' then
    ['\\', 't']
  else if character = '\x00' then
    ['\\', '0']
  else if isHidden character then
    ['\\', 'u', '\x7b'] ++ lowerHexText character.toNat ++ ['\x7d']
  else
    [character]

/-- A text between quotes. -/
def quote (text : List Char) : List Char :=
  '"' :: text.flatMap escape ++ ['"']

/-- A string between quotes. -/
def ofString (text : String) : String :=
  String.ofList (quote text.toList)

/-- An optional string, with a word for whether it is there. -/
def ofOption (text : Option String) : String :=
  match text with
  | none =>
      "None"
  | some text =>
      "Some(" ++ ofString text ++ ")"

end EventRelay.Text.Quoted
