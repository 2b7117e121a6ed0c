import EventRelay.Toml.Scan

namespace EventRelay.Toml

/-!
# Quoted texts

Texts stand in single or double quotes, on one line or, with three quotes,
on several.  Double quotes allow escapes.
-/

/-- The character with a number, if it is one. -/
def character? (value : Nat) : Option Char :=
  if value.isValidChar then
    some (Char.ofNat value)
  else
    none

/-- Takes a character written as hexadecimal digits. -/
def takeCode? (count : Nat) (text : List Char) : Option (Char × List Char) := do
  let (digits, rest) ← takeDigits? 16 count text
  let character ← character? (Text.ofDigits 16 digits)
  some (character, rest)

/-- Takes what follows the backslash of an escape. -/
def takeEscape? : List Char → Option (Char × List Char)
  | 'b' :: rest =>
      some ('\x08', rest)
  | 't' :: rest =>
      some ('\t', rest)
  | 'n' :: rest =>
      some ('\n', rest)
  | 'f' :: rest =>
      some ('\x0c', rest)
  | 'r' :: rest =>
      some ('\r', rest)
  | '"' :: rest =>
      some ('"', rest)
  | '\\' :: rest =>
      some ('\\', rest)
  | 'u' :: rest =>
      takeCode? 4 rest
  | 'U' :: rest =>
      takeCode? 8 rest
  | _ =>
      none

/--
Takes a text up to a closing double quote, the characters read so far newest
first.
-/
def takeBasic? : Nat → List Char → List Char → Option (String × List Char)
  | fuel + 1, found, character :: rest =>
      if character = '"' then
        some (String.ofList found.reverse, rest)
      else if character = '\\' then
        match takeEscape? rest with
        | some (escaped, rest) =>
            takeBasic? fuel (escaped :: found) rest
        | none =>
            none
      else if isPrintable character then
        takeBasic? fuel (character :: found) rest
      else
        none
  | _, _, _ =>
      none

/-- Takes a text up to a closing single quote. -/
def takeLiteral? (text : List Char) : Option (String × List Char) :=
  let isContent := fun character => character != '\'' && isPrintable character
  match text.dropWhile isContent with
  | '\'' :: rest =>
      some (String.ofList (text.takeWhile isContent), rest)
  | _ =>
      none

/-- What follows a line break that is escaped, with the blanks around it. -/
def afterEscapedBreak? (text : List Char) : Option (List Char) :=
  (afterLineBreak? (skipBlanks text)).map fun rest =>
    let isSpace := fun character =>
      isBlank character || character == '\n'
    skip isSpace rest.length rest
where
  /-- Skips blanks and line breaks. -/
  skip (isSpace : Char → Bool) : Nat → List Char → List Char
    | 0, text =>
        text
    | fuel + 1, text =>
        match text with
        | '\r' :: '\n' :: rest =>
            skip isSpace fuel rest
        | character :: rest =>
            if isSpace character then
              skip isSpace fuel rest
            else
              text
        | [] =>
            []

/--
How a run of quotes ends a text of several lines: quotes that still belong to
the text, and what follows the text; `none` if it does not end.
-/
def closing? (quote : Char) (text : List Char) : Option (List Char × List Char) :=
  let quotes := (text.takeWhile (· == quote)).length
  if quotes < 3 then
    none
  else
    let kept := min (quotes - 3) 2
    some (List.replicate kept quote, text.drop (kept + 3))

/-- Takes a text of several lines up to three closing quotes. -/
def takeLong? (quote : Char) (escapes : Bool) :
    Nat → List Char → List Char → Option (String × List Char)
  | fuel + 1, found, character :: rest =>
      if character = quote then
        match closing? quote (character :: rest) with
        | some (kept, after) =>
            some (String.ofList (kept ++ found).reverse, after)
        | none =>
            takeLong? quote escapes fuel (character :: found) rest
      else if escapes ∧ character = '\\' then
        match afterEscapedBreak? rest with
        | some rest =>
            takeLong? quote escapes fuel found rest
        | none =>
            match takeEscape? rest with
            | some (escaped, rest) =>
                takeLong? quote escapes fuel (escaped :: found) rest
            | none =>
                none
      else
        match afterLineBreak? (character :: rest) with
        | some rest =>
            takeLong? quote escapes fuel ('\n' :: found) rest
        | none =>
            if isPrintable character then
              takeLong? quote escapes fuel (character :: found) rest
            else
              none
  | _, _, _ =>
      none

/-- Takes a text of several lines; a line break at its start is dropped. -/
def takeLongText? (quote : Char) (escapes : Bool) (text : List Char) :
    Option (String × List Char) :=
  let body := (afterLineBreak? text).getD text
  takeLong? quote escapes body.length [] body

/-- Takes a quoted text on one line. -/
def takeShortText? : List Char → Option (String × List Char)
  | '"' :: rest =>
      takeBasic? rest.length [] rest
  | '\'' :: rest =>
      takeLiteral? rest
  | _ =>
      none

/-- Takes a quoted text. -/
def takeText? : List Char → Option (String × List Char)
  | '"' :: '"' :: '"' :: rest =>
      takeLongText? '"' true rest
  | '\'' :: '\'' :: '\'' :: rest =>
      takeLongText? '\'' false rest
  | text =>
      takeShortText? text

end EventRelay.Toml
