import EventRelay.Json.Number
import EventRelay.Text.Utf8

namespace EventRelay.Json

/-!
# Tokens

The bytes of a document are cut into tokens.  The first bytes that form no
token end the list with a mark.  A number that is too large and a text that
stands for no characters are still tokens, because a reader that skips them
does not object; their content is missing.
-/

/-- The least part of a document. -/
inductive Token where
  | openList
  | closeList
  | openObject
  | closeObject
  | colon
  | comma
  | null
  | boolean (value : Bool)
  | number (value : Option Number)
  | text (value : Option String)
  /-- Bytes that form no token. -/
  | invalid
  deriving Repr, DecidableEq

namespace Token

/-- Whether a byte may stand between tokens. -/
def isSpace (byte : UInt8) : Bool :=
  byte == 0x20 || byte == 0x0A || byte == 0x0D || byte == 0x09

/-- The digit that a byte stands for. -/
def digit? (byte : UInt8) : Option Nat :=
  if 0x30 ≤ byte ∧ byte ≤ 0x39 then
    some (byte.toNat - 0x30)
  else
    none

/-- The leading digits, and the bytes after them. -/
def takeDigits : List UInt8 → List Nat × List UInt8
  | [] =>
      ([], [])
  | byte :: rest =>
      match digit? byte with
      | none =>
          ([], byte :: rest)
      | some digit =>
          let (digits, after) := takeDigits rest
          (digit :: digits, after)

/-- The digits before the point: a zero alone, or no leading zero. -/
def takeWhole? (bytes : List UInt8) : Option (List Nat × List UInt8) :=
  match takeDigits bytes with
  | ([], _) =>
      none
  | (0 :: _ :: _, _) =>
      none
  | taken =>
      some taken

/-- The digits after the point, if there is one. -/
def takeFraction? (bytes : List UInt8) : Option (List Nat × List UInt8) :=
  match bytes with
  | 0x2E :: rest =>
      match takeDigits rest with
      | ([], _) =>
          none
      | taken =>
          some taken
  | _ =>
      some ([], bytes)

/-- The digits of an exponent with a sign. -/
def takeSigned? (negative : Bool) (bytes : List UInt8) :
    Option (Option (Bool × List Nat) × List UInt8) :=
  match takeDigits bytes with
  | ([], _) =>
      none
  | (digits, rest) =>
      some (some (negative, digits), rest)

/-- The exponent, if there is one. -/
def takeExponent? (bytes : List UInt8) :
    Option (Option (Bool × List Nat) × List UInt8) :=
  match bytes with
  | mark :: rest =>
      if mark = 0x65 ∨ mark = 0x45 then
        match rest with
        | 0x2B :: rest =>
            takeSigned? false rest
        | 0x2D :: rest =>
            takeSigned? true rest
        | _ =>
            takeSigned? false rest
      else
        some (none, bytes)
  | [] =>
      some (none, [])

/-- The parts of a number after its sign. -/
def takeNumber? (negative : Bool) (bytes : List UInt8) :
    Option (NumberText × List UInt8) := do
  let (whole, rest) ← takeWhole? bytes
  let (fraction, rest) ← takeFraction? rest
  let (exponent, rest) ← takeExponent? rest
  some (⟨negative, whole, fraction, exponent⟩, rest)

/-- The value of four hexadecimal digits, and the bytes after them. -/
def takeUnit? : List UInt8 → Option (Nat × List UInt8)
  | first :: second :: third :: fourth :: rest => do
      let digits ← [first, second, third, fourth].mapM fun byte =>
        Text.hexDigit? (Char.ofNat byte.toNat)
      some (Text.ofDigits 16 digits, rest)
  | _ =>
      none

/-- The byte that an escape of one letter stands for. -/
def escapedByte? (letter : UInt8) : Option UInt8 :=
  if letter = 0x22 ∨ letter = 0x5C ∨ letter = 0x2F then
    some letter
  else if letter = 0x62 then
    some 0x08
  else if letter = 0x66 then
    some 0x0C
  else if letter = 0x6E then
    some 0x0A
  else if letter = 0x72 then
    some 0x0D
  else if letter = 0x74 then
    some 0x09
  else
    none

/--
What was read of a text: its bytes, newest first, a first half of a character
that waits for the second, and whether all halves matched.
-/
structure TextState where
  bytes : List UInt8
  half : Option Nat
  sound : Bool
  deriving Repr, DecidableEq

namespace TextState

/-- Nothing read. -/
def start : TextState :=
  ⟨[], none, true⟩

/-- Reads bytes that stand for themselves; a waiting half stays alone. -/
def push (state : TextState) (bytes : List UInt8) : TextState :=
  ⟨bytes.reverse ++ state.bytes, none, state.sound && state.half.isNone⟩

/-- Reads a unit of sixteen bits. -/
def pushUnit (state : TextState) (unit : Nat) : TextState :=
  if 0xDC00 ≤ unit ∧ unit ≤ 0xDFFF then
    match state.half with
    | some half =>
        let code := 0x10000 + (half - 0xD800) * 0x400 + (unit - 0xDC00)
        ({ state with half := none }).push
          (Text.Utf8.encodeChar (Char.ofNat code))
    | none =>
        { state with sound := false }
  else if 0xD800 ≤ unit ∧ unit ≤ 0xDBFF then
    { state with half := some unit, sound := state.sound && state.half.isNone }
  else
    state.push (Text.Utf8.encodeChar (Char.ofNat unit))

/-- The characters of a text, if its units and bytes stand for any. -/
def finish (state : TextState) : Option String :=
  if state.sound && state.half.isNone then
    (Text.Utf8.decode? state.bytes.reverse).map String.ofList
  else
    none

end TextState

/--
Reads a text up to its closing quote; `none` if it has none or holds a control
character or an unknown escape.
-/
def takeText? : Nat → TextState → List UInt8 →
    Option (Option String × List UInt8)
  | 0, _, _ =>
      none
  | _ + 1, _, [] =>
      none
  | fuel + 1, state, byte :: rest =>
      if byte = 0x22 then
        some (state.finish, rest)
      else if byte < 0x20 then
        none
      else if byte = 0x5C then
        match rest with
        | [] =>
            none
        | letter :: rest =>
            if letter = 0x75 then
              match takeUnit? rest with
              | none =>
                  none
              | some (unit, rest) =>
                  takeText? fuel (state.pushUnit unit) rest
            else
              match escapedByte? letter with
              | none =>
                  none
              | some escaped =>
                  takeText? fuel (state.push [escaped]) rest
      else
        takeText? fuel (state.push [byte]) rest

/-- What follows given bytes at the start of a list. -/
def after? : List UInt8 → List UInt8 → Option (List UInt8)
  | [], rest =>
      some rest
  | _ :: _, [] =>
      none
  | expected :: more, byte :: rest =>
      if expected = byte then
        after? more rest
      else
        none

/-- The first token of bytes that do not start with a space. -/
def take? (first : UInt8) (rest : List UInt8) :
    Option (Token × List UInt8) :=
  if first = 0x5B then
    some (.openList, rest)
  else if first = 0x5D then
    some (.closeList, rest)
  else if first = 0x7B then
    some (.openObject, rest)
  else if first = 0x7D then
    some (.closeObject, rest)
  else if first = 0x3A then
    some (.colon, rest)
  else if first = 0x2C then
    some (.comma, rest)
  else if first = 0x22 then
    (takeText? (rest.length + 1) .start rest).map fun (content, rest) =>
      (.text content, rest)
  else if first = 0x6E then
    (after? [0x75, 0x6C, 0x6C] rest).map (.null, ·)
  else if first = 0x74 then
    (after? [0x72, 0x75, 0x65] rest).map (.boolean true, ·)
  else if first = 0x66 then
    (after? [0x61, 0x6C, 0x73, 0x65] rest).map (.boolean false, ·)
  else if first = 0x2D then
    (takeNumber? true rest).map fun (parts, rest) =>
      (.number parts.value?, rest)
  else
    (takeNumber? false (first :: rest)).map fun (parts, rest) =>
      (.number parts.value?, rest)

/-- The tokens of bytes, each of which uses up at least one byte. -/
def scan : Nat → List UInt8 → List Token
  | 0, _ =>
      []
  | _ + 1, [] =>
      []
  | fuel + 1, byte :: rest =>
      if isSpace byte then
        scan fuel rest
      else
        match take? byte rest with
        | none =>
            [.invalid]
        | some (token, rest) =>
            token :: scan fuel rest

/-- The tokens of a document. -/
def ofBytes (bytes : List UInt8) : List Token :=
  scan bytes.length bytes

end Token

end EventRelay.Json
