namespace EventRelay.Text

/-!
# Blank characters

The characters with the Unicode property White_Space.
-/

/-- Whether a character has the property White_Space. -/
def isBlank (character : Char) : Bool :=
  let value := character.toNat
  (9 ≤ value && value ≤ 13) ||
    value == 0x20 ||
    value == 0x85 ||
    value == 0xA0 ||
    value == 0x1680 ||
    (0x2000 ≤ value && value ≤ 0x200A) ||
    value == 0x2028 ||
    value == 0x2029 ||
    value == 0x202F ||
    value == 0x205F ||
    value == 0x3000

/-- Whether a text holds nothing but blanks. -/
def isBlankText (text : String) : Bool :=
  text.toList.all isBlank

end EventRelay.Text
