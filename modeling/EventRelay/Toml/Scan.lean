import EventRelay.Text.Digits

namespace EventRelay.Toml

/-!
# Scanning TOML

Scanners take characters from the front of a text.  They return what they
found together with what follows, or nothing if the text does not fit.
-/

/-- Whether a character is a blank within a line. -/
def isBlank (character : Char) : Bool :=
  character == ' ' || character == '\t'

/-- Skips blanks within a line. -/
def skipBlanks (text : List Char) : List Char :=
  text.dropWhile isBlank

/--
Whether a character may stand in a comment or in quotes: no control character
but the tab.
-/
def isPrintable (character : Char) : Bool :=
  character == '\t' || (0x20 ≤ character.toNat && character.toNat != 0x7F)

/-- What follows a line break at the front. -/
def afterLineBreak? : List Char → Option (List Char)
  | '\n' :: rest =>
      some rest
  | '\r' :: '\n' :: rest =>
      some rest
  | _ =>
      none

/-- Skips a comment up to the end of its line. -/
def skipComment : List Char → List Char
  | '#' :: rest =>
      rest.dropWhile isPrintable
  | text =>
      text

/-- Skips blanks and a comment, and the end of the line after them. -/
def endLine? (text : List Char) : Option (List Char) :=
  match skipComment (skipBlanks text) with
  | [] =>
      some []
  | rest =>
      afterLineBreak? rest

/--
Skips blanks, comments and line breaks, each step of which uses up a
character.
-/
def skipLines : Nat → List Char → List Char
  | 0, text =>
      text
  | fuel + 1, text =>
      match text with
      | '#' :: rest =>
          skipLines fuel (rest.dropWhile isPrintable)
      | _ =>
          match afterLineBreak? text with
          | some rest =>
              skipLines fuel rest
          | none =>
              match text with
              | [] =>
                  []
              | character :: rest =>
                  if isBlank character then
                    skipLines fuel rest
                  else
                    text

/-- Skips blanks, comments and line breaks. -/
def skipSpace (text : List Char) : List Char :=
  skipLines text.length text

/-- Takes an expected character. -/
def expect? (expected : Char) : List Char → Option (List Char)
  | [] =>
      none
  | character :: rest =>
      if character = expected then
        some rest
      else
        none

/-- What follows a word at the front. -/
def afterWord? : List Char → List Char → Option (List Char)
  | [], text =>
      some text
  | _ :: _, [] =>
      none
  | expected :: word, character :: rest =>
      if expected = character then
        afterWord? word rest
      else
        none

/-- Takes a given number of characters that are digits of a base. -/
def takeDigits? (base : Nat) : Nat → List Char → Option (List Nat × List Char)
  | 0, text =>
      some ([], text)
  | _ + 1, [] =>
      none
  | count + 1, character :: rest => do
      let digit ← Text.hexDigit? character
      if digit < base then
        let (digits, rest) ← takeDigits? base count rest
        some (digit :: digits, rest)
      else
        none

/-- Takes a number written with a given number of decimal digits. -/
def takeNumber? (count : Nat) (text : List Char) : Option (Nat × List Char) := do
  let (digits, rest) ← takeDigits? 10 count text
  some (Text.ofDigits 10 digits, rest)

end EventRelay.Toml
