import EventRelay.Json.Value

namespace EventRelay.Json

/-!
# Compact texts

A value is written without blanks.  In texts, the quote, the backslash and
control characters are escaped, and nothing else.
-/

/-- How a character is written inside quotes. -/
def escape (character : Char) : List Char :=
  if character = '"' then
    ['\\', '"']
  else if character = '\\' then
    ['\\', '\\']
  else if character = '\x08' then
    ['\\', 'b']
  else if character = '\x0c' then
    ['\\', 'f']
  else if character = '\n' then
    ['\\', 'n']
  else if character = '\r' then
    ['\\', 'r']
  else if character = '\t' then
    ['\\', 't']
  else if character.toNat < 0x20 then
    ['\\', 'u', '0', '0',
      Text.lowerHexDigit (character.toNat / 16),
      Text.lowerHexDigit (character.toNat % 16)]
  else
    [character]

/-- A text in quotes. -/
def quoted (text : String) : List Char :=
  '"' :: text.toList.flatMap escape ++ ['"']

namespace Value

mutual

/-- The compact text of a value. -/
def print : Value → List Char
  | .null =>
      ['n', 'u', 'l', 'l']
  | .boolean true =>
      ['t', 'r', 'u', 'e']
  | .boolean false =>
      ['f', 'a', 'l', 's', 'e']
  | .number value =>
      value.text
  | .text value =>
      quoted value
  | .list items =>
      '[' :: printItems items ++ [']']
  | .object members =>
      '{' :: printMembers members ++ ['}']

/-- The items of a list, separated by commas. -/
def printItems : List Value → List Char
  | [] =>
      []
  | [item] =>
      print item
  | item :: items =>
      print item ++ ',' :: printItems items

/-- The members of an object, separated by commas. -/
def printMembers : List (String × Value) → List Char
  | [] =>
      []
  | [(key, value)] =>
      quoted key ++ ':' :: print value
  | (key, value) :: members =>
      quoted key ++ ':' :: print value ++ ',' :: printMembers members

end

/-- The compact text of a value as a string. -/
def compact (value : Value) : String :=
  String.ofList value.print

mutual

/-- The text of a value over several lines, at a depth of indentation. -/
def printIndented (depth : Nat) : Value → List Char
  | .list [] =>
      ['[', ']']
  | .list items =>
      '[' :: indentedItems (depth + 1) items ++
        '\n' :: List.replicate (2 * depth) ' ' ++ [']']
  | .object [] =>
      ['{', '}']
  | .object members =>
      '{' :: indentedMembers (depth + 1) members ++
        '\n' :: List.replicate (2 * depth) ' ' ++ ['}']
  | value =>
      print value

/-- The items of a list, each on a line of its own. -/
def indentedItems (depth : Nat) : List Value → List Char
  | [] =>
      []
  | item :: items =>
      '\n' :: List.replicate (2 * depth) ' ' ++
        printIndented depth item ++
        (if items.isEmpty then [] else [',']) ++
        indentedItems depth items

/-- The members of an object, each on a line of its own. -/
def indentedMembers (depth : Nat) : List (String × Value) → List Char
  | [] =>
      []
  | (key, value) :: members =>
      '\n' :: List.replicate (2 * depth) ' ' ++
        quoted key ++ ':' :: ' ' :: printIndented depth value ++
        (if members.isEmpty then [] else [',']) ++
        indentedMembers depth members

end

/-- The text of a value over several lines, indented by two blanks. -/
def pretty (value : Value) : String :=
  String.ofList (value.printIndented 0)

end Value

end EventRelay.Json
